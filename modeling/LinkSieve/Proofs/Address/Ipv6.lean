import LinkSieve.Address.Ipv6
import LinkSieve.Proofs.Decimal.Digits
import LinkSieve.Proofs.Text.Split

/-!
# Reading back addresses

The text of an IPv4 address and the text of an IPv6 address read back as the address. For an IPv6
address this does not depend on which stretch of zero pieces is left out, only on that stretch
being one of zeros.
-/

namespace LinkSieve.Address

open Decimal (digitChars)

namespace Ipv4

theorem readPart?_natText (n : UInt8) : readPart? (Decimal.natText n.toNat) = some n := by
  have hn : n.toNat < 256 := n.toNat_lt
  have hlen : (Decimal.natText n.toNat).length ≤ 3 :=
    (Nat.length_toDigits_le_iff (by decide) (by decide)).2 (by omega)
  have hzero : ¬((Decimal.natText n.toNat).head? = some '0' ∧
      1 < (Decimal.natText n.toNat).length) := by
    rintro ⟨hhead, hlong⟩
    by_cases h0 : n.toNat = 0
    · simp [Decimal.natText, h0] at hlong
    · exact Decimal.head?_toDigits_ne_zero Decimal.isBase_ten h0 hhead
  have hread : Decimal.readNat? 10 (Decimal.natText n.toNat) = some n.toNat :=
    Decimal.readNat?_toDigits Decimal.isBase_ten _
  rw [readPart?, if_neg, hread]
  · simp only [hn, if_true, UInt8.ofNat_toNat]
  · simp only [Bool.or_eq_true, Bool.and_eq_true, decide_eq_true_eq]
    rintro (h | h)
    · omega
    · exact hzero h

theorem mem_natText {n : Nat} {c : Char} (h : c ∈ Decimal.natText n) : c ∈ digitChars :=
  Decimal.mem_digitChars_of_mem_toDigits Decimal.isBase_ten h

/-- The text of an IPv4 address reads back as the address. -/
theorem read?_text (ip : Ipv4) : read? ip.text = some ip := by
  have hsplit : ip.text.splitOn '.' =
      [ip.a, ip.b, ip.c, ip.d].map fun n => Decimal.natText n.toNat := by
    apply List.splitOn_intercalate
    · intro l hl hdot
      obtain ⟨n, -, rfl⟩ := List.mem_map.1 hl
      exact absurd (mem_natText hdot) (by decide)
    · simp
  rw [read?, hsplit]
  simp only [List.map_cons, List.map_nil, List.mapM_cons, List.mapM_nil, readPart?_natText]
  rfl

/-- Addresses are written with decimal digits and points. -/
theorem mem_text {ip : Ipv4} {c : Char} (h : c ∈ ip.text) : c ∈ digitChars ∨ c = '.' := by
  rw [text] at h
  rcases Text.mem_intercalate h with h | ⟨piece, hpiece, hc⟩
  · exact .inr h
  · obtain ⟨n, -, rfl⟩ := List.mem_map.1 hpiece
    exact .inl (mem_natText hc)

theorem dot_mem_text (ip : Ipv4) : '.' ∈ ip.text := by
  simp [text, List.intercalate_cons_cons]

end Ipv4

namespace Ipv6

theorem mem_pieceText {n : UInt16} {c : Char} (h : c ∈ pieceText n) : c ∈ digitChars :=
  Decimal.mem_digitChars_of_mem_toDigits Decimal.isBase_sixteen h

theorem colon_not_mem_pieceText (n : UInt16) : ':' ∉ pieceText n :=
  fun h => absurd (mem_pieceText h) (by decide)

theorem readPiece?_pieceText (n : UInt16) : readPiece? (pieceText n) = some n := by
  have hn : n.toNat < 65536 := n.toNat_lt
  have hlen : (pieceText n).length ≤ 4 :=
    (Nat.length_toDigits_le_iff (by decide) (by decide)).2 (by omega)
  have hread : Decimal.readNat? 16 (pieceText n) = some n.toNat :=
    Decimal.readNat?_toDigits Decimal.isBase_sixteen _
  rw [readPiece?, if_neg (by omega), hread, Option.map_some, UInt16.ofNat_toNat]

@[simp] theorem piecesText_nil : piecesText [] = [] := rfl

@[simp] theorem piecesText_singleton (n : UInt16) : piecesText [n] = pieceText n := by
  simp [piecesText]

theorem piecesText_cons_cons (m n : UInt16) (rest : List UInt16) :
    piecesText (m :: n :: rest) = pieceText m ++ ':' :: piecesText (n :: rest) := by
  simp [piecesText, List.intercalate_cons_cons]

theorem splitOn_piecesText {pieces : List UInt16} (h : pieces ≠ []) :
    (piecesText pieces).splitOn ':' = pieces.map pieceText := by
  apply List.splitOn_intercalate
  · intro l hl
    obtain ⟨n, -, rfl⟩ := List.mem_map.1 hl
    exact colon_not_mem_pieceText n
  · simpa using h

theorem mapM_readPiece? (pieces : List UInt16) :
    (pieces.map pieceText).mapM readPiece? = some pieces := by
  induction pieces with
  | nil => rfl
  | cons n rest ih => simp [List.mapM_cons, readPiece?_pieceText, ih]

theorem readPieces?_map_pieceText (pieces : List UInt16) :
    readPieces? (pieces.map pieceText) = some pieces := by
  have hdot (n : UInt16) : (pieceText n).contains '.' = false := by
    rw [List.contains_eq_mem, decide_eq_false]
    exact fun h => absurd (mem_pieceText h) (by decide)
  induction pieces with
  | nil => rfl
  | cons n rest ih =>
      cases rest with
      | nil =>
          rw [List.map_cons, List.map_nil, readPieces?, hdot, readPiece?_pieceText]
          rfl
      | cons m rest =>
          rw [List.map_cons] at ih
          rw [List.map_cons, List.map_cons, readPieces?, readPiece?_pieceText, ih]
          · rfl
          · exact List.cons_ne_nil _ _

theorem readSide?_piecesText (last : Bool) (pieces : List UInt16) :
    readSide? last (piecesText pieces) = some pieces := by
  cases pieces with
  | nil => rfl
  | cons n rest =>
      have hne : (piecesText (n :: rest)).isEmpty = false := by
        rw [List.isEmpty_eq_false_iff]
        intro h
        have hsplit : (piecesText (n :: rest)).splitOn ':' = (n :: rest).map pieceText :=
          splitOn_piecesText (List.cons_ne_nil n rest)
        rw [h, List.splitOn_nil] at hsplit
        have hnil : pieceText n = [] := (List.cons.inj hsplit).1.symm
        exact Nat.toDigits_ne_nil hnil
      rw [readSide?, hne, splitOn_piecesText (by simp), mapM_readPiece?,
        readPieces?_map_pieceText]
      simp

/-- A text without colons stands before the pair of colons or does not matter to it. -/
theorem cutGap?_append {w : List Char} (hw : ':' ∉ w) (cs : List Char) :
    cutGap? (w ++ cs) = (cutGap? cs).map fun (before, after) => (w ++ before, after) := by
  induction w with
  | nil => simp
  | cons c w ih =>
      obtain ⟨hc, hw⟩ := not_or.1 (mt List.mem_cons.2 hw)
      rw [List.cons_append, cutGap?, ih hw, Option.map_map]
      · rfl
      · exact fun rest h _ => hc h.symm

/-- Pieces with single colons between them hold no pair of colons. -/
theorem cutGap?_piecesText_append (pieces : List UInt16) (tail : List Char) :
    cutGap? (piecesText pieces ++ tail) =
      (cutGap? tail).map fun (before, after) => (piecesText pieces ++ before, after) := by
  induction pieces with
  | nil => simp
  | cons n rest ih =>
      cases rest with
      | nil => rw [piecesText_singleton, cutGap?_append (colon_not_mem_pieceText n)]
      | cons m rest =>
          obtain ⟨d, ds, hd⟩ := List.exists_cons_of_ne_nil (l := pieceText m) Nat.toDigits_ne_nil
          have hdcolon : d ≠ ':' := by
            rintro rfl
            exact colon_not_mem_pieceText m (hd ▸ List.mem_cons_self)
          obtain ⟨es, hes⟩ : ∃ es, piecesText (m :: rest) = d :: es := by
            cases rest with
            | nil => exact ⟨ds, by rw [piecesText_singleton, hd]⟩
            | cons k rest => exact ⟨_, by rw [piecesText_cons_cons, hd, List.cons_append]⟩
          rw [piecesText_cons_cons, List.append_assoc,
            cutGap?_append (colon_not_mem_pieceText n), List.cons_append]
          rw [hes, List.cons_append] at ih ⊢
          rw [cutGap?, ih, Option.map_map, Option.map_map]
          · simp [Function.comp_def]
          · exact fun rest _ h => hdcolon (List.cons.inj h).1

theorem takeWhile_zero_eq_replicate (pieces : List UInt16) :
    pieces.takeWhile (· == 0) = List.replicate (zerosAt pieces) 0 := by
  rw [List.eq_replicate_iff]
  refine ⟨rfl, fun n hn => ?_⟩
  simpa using List.all_eq_true.1 List.all_takeWhile n hn

theorem drop_zerosAt (pieces : List UInt16) :
    pieces.drop (zerosAt pieces) = pieces.dropWhile (· == 0) := by
  have happ := List.takeWhile_append_dropWhile (p := fun n : UInt16 => n == 0) (l := pieces)
  calc
    pieces.drop (zerosAt pieces) =
        (pieces.takeWhile (· == 0) ++ pieces.dropWhile (· == 0)).drop (zerosAt pieces) := by
      rw [happ]
    _ = pieces.dropWhile (· == 0) := List.drop_left' rfl

/-- The stretch that `longestZeros` finds is one of zero pieces. -/
theorem longestZeros_split (pieces : List UInt16) :
    pieces.take (longestZeros pieces).1 ++ List.replicate (longestZeros pieces).2 0 ++
      pieces.drop ((longestZeros pieces).1 + (longestZeros pieces).2) = pieces := by
  induction pieces with
  | nil => rfl
  | cons n rest ih =>
      rw [longestZeros]
      generalize longestZeros rest = found at ih
      obtain ⟨start, length⟩ := found
      dsimp only at ih ⊢
      split
      · rw [List.take_zero, List.nil_append, Nat.zero_add, drop_zerosAt,
          ← takeWhile_zero_eq_replicate]
        exact List.takeWhile_append_dropWhile
      · rw [List.take_succ_cons, List.cons_append, List.cons_append, Nat.add_right_comm,
          List.drop_succ_cons, ih]

/-- The pieces that the longest stretch of zeros leaves. -/
theorem length_longestZeros (pieces : List UInt16) :
    (pieces.take (longestZeros pieces).1).length + (longestZeros pieces).2 +
      (pieces.drop ((longestZeros pieces).1 + (longestZeros pieces).2)).length = pieces.length := by
  have hsplit := congrArg List.length (longestZeros_split pieces)
  rwa [List.length_append, List.length_append, List.length_replicate] at hsplit

theorem ofPieces?_pieces (ip : Ipv6) : ofPieces? ip.pieces = some ip := by
  rw [ofPieces?, dif_pos ip.length_pieces]

/-- The shortest text reads back as the address. -/
theorem read?_shortText (ip : Ipv6) : read? ip.shortText = some ip := by
  have hsplit := longestZeros_split ip.pieces
  have hlength := length_longestZeros ip.pieces
  rw [ip.length_pieces] at hlength
  rw [shortText]
  generalize longestZeros ip.pieces = found at hsplit hlength
  obtain ⟨start, length⟩ := found
  dsimp only at hsplit hlength ⊢
  split
  · rename_i hlong
    have hcut : cutGap? (piecesText (ip.pieces.take start) ++ "::".toList ++
        piecesText (ip.pieces.drop (start + length))) =
        some (piecesText (ip.pieces.take start), piecesText (ip.pieces.drop (start + length))) := by
      rw [List.append_assoc, cutGap?_piecesText_append]
      simp [cutGap?]
    have hgap : 8 - (ip.pieces.take start).length -
        (ip.pieces.drop (start + length)).length = length := by omega
    simp only [read?, hcut, readSide?_piecesText, Option.bind_eq_bind, Option.bind_some]
    rw [if_pos (by omega), hgap, hsplit, ofPieces?_pieces]
  · have hcut : cutGap? (piecesText ip.pieces) = none := by
      simpa [cutGap?] using cutGap?_piecesText_append ip.pieces []
    have hne : ip.pieces ≠ [] := by
      intro h
      simpa [h] using ip.length_pieces
    rw [read?, hcut]
    simp only
    rw [splitOn_piecesText hne, readPieces?_map_pieceText, Option.bind_some, ofPieces?_pieces]

theorem ofIpv4_bytesOf (high low : UInt16) :
    ofIpv4 ⟨(bytesOf high).1, (bytesOf high).2, (bytesOf low).1, (bytesOf low).2⟩ =
      [high, low] := by
  have hbytes (n : UInt16) :
      UInt16.ofNat ((UInt8.ofNat (n.toNat / 256)).toNat * 256 + (UInt8.ofNat n.toNat).toNat) =
        n := by
    have hn : n.toNat < 65536 := n.toNat_lt
    apply UInt16.toNat_inj.1
    simp only [UInt8.toNat_ofNat', UInt16.toNat_ofNat']
    omega
  simp only [ofIpv4, bytesOf, hbytes]

theorem read?_mappedText (v4 : Ipv4) :
    read? ("::ffff:".toList ++ v4.text) =
      ofPieces? (List.replicate 5 0 ++ 0xFFFF :: ofIpv4 v4) := by
  have hcut : cutGap? ("::ffff:".toList ++ v4.text) = some ([], "ffff:".toList ++ v4.text) := rfl
  have hcolon : ':' ∉ v4.text := by
    intro h
    rcases Ipv4.mem_text h with h | h
    · exact absurd h (by decide)
    · exact absurd h (by decide)
  have hsplit : ("ffff:".toList ++ v4.text).splitOn ':' = ["ffff".toList, v4.text] := by
    have happ : "ffff:".toList ++ v4.text = "ffff".toList ++ ':' :: v4.text := rfl
    rw [happ, List.splitOn_append_cons_self_of_not_mem (by decide),
      List.splitOn_eq_singleton hcolon]
  have hlast : readSide? true ("ffff:".toList ++ v4.text) = some (0xFFFF :: ofIpv4 v4) := by
    have hpiece : readPiece? "ffff".toList = some 0xFFFF := rfl
    have hdot : v4.text.contains '.' = true := List.contains_iff_mem.2 (Ipv4.dot_mem_text v4)
    rw [readSide?, if_neg (by simp), if_pos rfl, hsplit, readPieces?, hpiece, readPieces?, hdot,
      Ipv4.read?_text]
    · rfl
    · exact List.cons_ne_nil _ _
  have hfirst : readSide? false [] = some [] := rfl
  simp only [read?, hcut, hfirst, hlast, Option.bind_eq_bind, Option.bind_some]
  rfl

/-- The text of an IPv6 address reads back as the address. -/
theorem read?_text (ip : Ipv6) : read? ip.text = some ip := by
  rw [text]
  split
  · rename_i high low hpieces
    change read? ("::ffff:".toList ++
      Ipv4.text ⟨(bytesOf high).1, (bytesOf high).2, (bytesOf low).1, (bytesOf low).2⟩) = some ip
    rw [read?_mappedText, ofIpv4_bytesOf, ← ofPieces?_pieces ip, hpieces]
    rfl
  · exact read?_shortText ip

theorem mem_piecesText {pieces : List UInt16} {c : Char} (h : c ∈ piecesText pieces) :
    c ∈ digitChars ∨ c = ':' := by
  rw [piecesText] at h
  rcases Text.mem_intercalate h with h | ⟨piece, hpiece, hc⟩
  · exact .inr h
  · obtain ⟨n, -, rfl⟩ := List.mem_map.1 hpiece
    exact .inl (mem_pieceText hc)

/-- The shortest text holds hexadecimal digits and colons. -/
theorem mem_shortText {ip : Ipv6} {c : Char} (h : c ∈ ip.shortText) : c ∈ digitChars ∨ c = ':' := by
  have hgap : ∀ d ∈ "::".toList, d = ':' := Text.forall_of_all (by decide)
  rw [shortText] at h
  split at h
  split at h
  · rw [List.mem_append, List.mem_append] at h
    rcases h with (h | h) | h
    · exact mem_piecesText h
    · exact .inr (hgap c h)
    · exact mem_piecesText h
  · exact mem_piecesText h

/-- Addresses are written with hexadecimal digits, colons and points. -/
theorem mem_text {ip : Ipv6} {c : Char} (h : c ∈ ip.text) :
    c ∈ digitChars ∨ c = ':' ∨ c = '.' := by
  have hmapped : ∀ d ∈ "::ffff:".toList, d ∈ digitChars ∨ d = ':' :=
    Text.forall_of_all (by decide)
  rw [text] at h
  split at h
  · rcases List.mem_append.1 h with h | h
    · exact (hmapped c h).imp id .inl
    · exact (Ipv4.mem_text h).imp id .inr
  · exact (mem_shortText h).imp id .inl

/-- Every text of an IPv6 address holds a colon. -/
theorem colon_mem_text (ip : Ipv6) : ':' ∈ ip.text := by
  have hpieces : ∀ pieces : List UInt16, 2 ≤ pieces.length → ':' ∈ piecesText pieces := by
    intro pieces h
    match pieces, h with
    | n :: m :: rest, _ =>
        rw [piecesText_cons_cons]
        exact List.mem_append_right _ List.mem_cons_self
  rw [text]
  split
  · exact List.mem_append_left _ (by decide)
  · rw [shortText]
    split
    split
    · exact List.mem_append_left _ (List.mem_append_right _ (by decide))
    · exact hpieces _ (by rw [ip.length_pieces]; decide)

end Ipv6

end LinkSieve.Address
