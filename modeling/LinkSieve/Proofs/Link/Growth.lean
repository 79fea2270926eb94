import LinkSieve.Proofs.Json.Size
import LinkSieve.Proofs.Link.Filtering
import LinkSieve.Proofs.Link.RoundTrip
import LinkSieve.Proofs.Link.Vmess
import LinkSieve.Proofs.Url.Size

/-!
# How long canonical texts are

A canonical text may be longer than its line, for what has been escaped takes three bytes for one.
It takes no more than that, but for a few marks, the digits of a port and the text of an address:
what is decoded on the way is never larger than what it is decoded from, and the parameters that a
format rewrites never outgrow those that were read. So the output for a line that is short enough is
a line again, and the output for a longer one need not be.

The canonical texts of VMess have a bound of their own. They also grow by the numbers in them, which
are written in another notation than they are read in.
-/

namespace LinkSieve.Link

open Text.Utf8 (size)
open Url (Host RawParts weight markedSize)

namespace Vless

theorem sublist_of_firstProtocol? {list protocol : String}
    (h : firstProtocol? list = some protocol) : protocol.toList.Sublist list.toList := by
  obtain ⟨cs, hfind, rfl⟩ := Option.map_eq_some_iff.1 h
  obtain ⟨piece, hpiece, rfl⟩ := List.mem_map.1 (List.mem_of_find?_eq_some hfind)
  rw [String.toList_ofList]
  exact (Text.trimBy_sublist _ _).trans (Text.sublist_of_mem_splitOn hpiece)

/-- Keeping one application protocol keeps a part of the first list of them. -/
theorem weight_withOneAlpn_le (q : Query) : weight (withOneAlpn q).pairs ≤ weight q.pairs := by
  have herase := Query.weight_pairs_erase q "alpn"
  rw [withOneAlpn]
  split
  · exact Nat.le_refl _
  · rename_i values hvalues
    split
    · rename_i protocol hprotocol
      obtain ⟨list, hlist, hfirst⟩ := Option.bind_eq_some_iff.1 hprotocol
      obtain ⟨others, rfl⟩ := List.head?_eq_some_iff.1 hlist
      have hvalue := Url.size_encodeForm_of_sublist (sublist_of_firstProtocol? hfirst)
      rw [hvalues] at herase
      rw [Query.weight_pairs_insert, herase]
      simp only [weight, Option.getD_some, List.map_cons, List.map_nil, List.sum_cons,
        List.sum_nil, Url.size_pairText]
      omega
    · exact Query.weight_pairs_erase_le q "alpn"

/-- Rewriting parameters makes them no larger. -/
theorem weight_rewrite_le (q : Query) : weight (rewrite q).pairs ≤ weight q.pairs := by
  have hshort := Query.weight_pairs_erase_le q "insecure"
  have hlong := Query.weight_pairs_erase_le (q.erase "insecure") "allowInsecure"
  have halpn := weight_withOneAlpn_le (withoutToggles q)
  exact halpn.trans (hlong.trans hshort)

end Vless

theorem size_of_afterScheme? {scheme line rest : List Char} (hscheme : ∀ c ∈ scheme, c.toNat < 0x80)
    (h : afterScheme? scheme line = some rest) : size line = scheme.length + 3 + size rest := by
  obtain ⟨hstart, hdrop⟩ := afterScheme?_eq_some h
  have hlower (cs : List Char) : size (cs.map Text.lowerAscii) = size cs :=
    Text.Utf8.size_map (fun _ hc => Text.ascii_of_lowerAscii_ne hc) cs
  have hmarks : size "://".toList = 3 := rfl
  calc
    size line = size (line.take scheme.length) + size (line.drop scheme.length) := by
      rw [← Text.Utf8.size_append, List.take_append_drop]
    _ = scheme.length + 3 + size rest := by
      rw [← hlower (line.take scheme.length), hstart, hlower, Text.Utf8.size_of_ascii hscheme,
        hdrop, Text.Utf8.size_append, hmarks, Nat.add_assoc]

namespace Shadowsocks

variable {url : Url} {raw : RawParts} {cipher password : List Char}

theorem size_of_unescape {cs ds : List Char} (h : unescape (String.ofList
    (Text.Percent.encode Url.Escaped.inUserinfo cs)) = .ok ds) : size ds ≤ size cs := by
  rw [unescape, String.toList_ofList, (Url.partly_encode_inUserinfo cs).decode_eq] at h
  split at h
  · rename_i found hfound
    obtain rfl := Except.ok.inj h
    exact (Text.Utf8.size_le_of_decode? hfound).trans (Text.Percent.length_decode_le _)
  · cases h

/-- The credentials take no more than the user info that they are read from, in either form. -/
theorem size_of_credentials (hraw : raw.IsReadAs url)
    (h : credentials url.username url.password = .ok (cipher, password)) :
    size (cipher ++ ':' :: password) ≤ size raw.userinfo := by
  obtain ⟨rawName, rawPassword, hsize, hname, hpassword⟩ := hraw.exists_userinfo
  rw [hname, hpassword] at h
  rw [Text.Utf8.size_append, Text.Utf8.size_cons_of_ascii (by decide)]
  cases hfilled : rawPassword.filter (!·.isEmpty) with
  | some given =>
      obtain rfl : rawPassword = some given := Option.eq_some_of_filter_eq_some hfilled
      rw [hfilled] at h
      obtain ⟨name, hname, h⟩ := Outcome.bind_eq_ok.1 h
      obtain ⟨secret, hsecret, h⟩ := Outcome.bind_eq_ok.1 h
      cases h
      have hname := size_of_unescape hname
      have hsecret := size_of_unescape hsecret
      simp only [markedSize, Option.map_some, Option.getD_some] at hsize
      omega
  | none =>
      rw [hfilled] at h
      obtain ⟨encoded, hencoded, h⟩ := Outcome.bind_eq_ok.1 h
      split at h
      · rename_i decoded hdecoded
        split at h
        · rename_i pair hpair
          cases h
          have hencoded := size_of_unescape hencoded
          have hdecoded := Base64.size_of_decodeText? hdecoded
          rw [Text.cutFirst?_eq_some hpair, Text.Utf8.size_append,
            Text.Utf8.size_cons_of_ascii (by decide)] at hdecoded
          omega
        · cases h
      · cases h

/-- The user info of a canonical link takes at most three times as much as that of the URL. -/
theorem size_credentialsText_le (hraw : raw.IsReadAs url)
    (h : credentials url.username url.password = .ok (cipher, password)) :
    size (credentialsText cipher password) ≤ 3 * size raw.userinfo := by
  have hsize := size_of_credentials hraw h
  have hencode := Base64.size_encodeText_le true (cipher ++ ':' :: password)
  have hpos : 0 < size (cipher ++ ':' :: password) :=
    Text.Utf8.size_pos (List.append_ne_nil_of_right_ne_nil _ (List.cons_ne_nil _ _))
  rw [credentialsText, encode, Base64.Dialect.urlBare]
  omega

/-- What a payload is expanded to is no larger than the payload: Base64 of all of it leaves room for
Base64 of a part. -/
theorem size_of_expandPayload {payload expanded : List Char}
    (h : expandPayload payload = .ok expanded) : size expanded ≤ size payload := by
  rw [expandPayload] at h
  split at h
  · cases h
  · rename_i decoded hdecoded
    split at h
    · cases h
    · rename_i pair server hcut
      obtain rfl := Except.ok.inj h
      have hdecoded := Base64.size_of_decodeText? hdecoded
      have hencode := Base64.size_encodeText_le true pair
      rw [Text.cutLast?_eq_some hcut, Text.Utf8.size_append,
        Text.Utf8.size_cons_of_ascii (by decide)] at hdecoded
      rw [Text.Utf8.size_append, Text.Utf8.size_cons_of_ascii (by decide), encode,
        Base64.Dialect.urlBare]
      omega

theorem size_part {mark : Char} (hmark : mark.toNat < 0x80) (cs : Option (List Char)) :
    size (part mark cs) = markedSize cs := by
  cases cs with
  | none => rfl
  | some cs =>
      rw [part, Text.Utf8.size_cons_of_ascii hmark]
      rfl

/-- Expanding a link makes it no larger. -/
theorem size_of_expandLegacy {line text : String} (h : expandLegacy line = .ok text) :
    size text.toList ≤ size line.toList := by
  rw [expandLegacy] at h
  split at h
  · rename_i rest hrest
    have hline := size_of_afterScheme? (Text.forall_of_all (by decide)) hrest
    have hbody := Url.size_cutOption '#' (by decide) rest
    have hpayload := Url.size_cutOption '?' (by decide) (Text.cutOption '#' rest).1
    simp only at h
    split at h
    · cases h
      exact Nat.le_refl _
    · obtain ⟨expanded, hexpand, h⟩ := Outcome.bind_eq_ok.1 h
      have hexpanded := size_of_expandPayload hexpand
      generalize Text.cutOption '?' (Text.cutOption '#' rest).1 = front at *
      generalize Text.cutOption '#' rest = back at *
      obtain rfl : String.ofList ("ss://".toList ++ expanded ++ part '?' front.2 ++
        part '#' back.2) = text := Except.ok.inj h
      have hscheme : size "ss://".toList = 5 ∧ "ss".toList.length = 2 := ⟨rfl, rfl⟩
      rw [String.toList_ofList, Text.Utf8.size_append, Text.Utf8.size_append, Text.Utf8.size_append,
        size_part (by decide), size_part (by decide)]
      omega
  · cases h

end Shadowsocks

namespace Vmess

variable {payload : List Char} {fields : Fields}

/-- Base64 gains as much as is lost where the payload is decoded, but for its padding. -/
theorem size_payloadOf_le (h : readFields payload = .ok fields) :
    size (payloadOf fields) ≤ 8 * size payload + 2 := by
  obtain ⟨data, cs, raw, hdata, hcs, hread, rfl⟩ := readFields_eq_ok.1 h
  have hdata : 4 * data.length ≤ 3 * size payload := Base64.length_of_decode hdata
  have hchars := (Text.Utf8.length_le_size cs).trans (Text.Utf8.size_le_of_decode? hcs)
  have hwritten := Json.size_write_le_of_read? hread
  have hcanonical : size (Json.write (.object (Json.canonicalFields raw).entries)) ≤
      size (Json.write (.object raw)) :=
    Json.size_write_canonical_le (.object raw)
  have hencode :=
    Base64.size_encodeText_padded_le false (Json.write (.object (Json.canonicalFields raw).entries))
  rw [payloadOf, Base64.Dialect.standard]
  omega

/-- The text of fields is at most eight times as large as the line that they are read from. -/
theorem size_text_le {line : String}
    (hline : afterScheme? "vmess".toList line.toList = some payload)
    (h : readFields payload = .ok fields) :
    (text fields).utf8ByteSize ≤ 8 * line.utf8ByteSize := by
  have hpayload := size_payloadOf_le h
  have hbefore := size_of_afterScheme? (Text.forall_of_all (by decide)) hline
  have hagain := size_of_afterScheme? (Text.forall_of_all (by decide)) (afterScheme?_text fields)
  have hscheme : "vmess".toList.length = 5 := rfl
  rw [Text.Utf8.utf8ByteSize_eq, Text.Utf8.utf8ByteSize_eq]
  omega

end Vmess

/-- Parameters are written with a mark before each pair, and with one mark where there is no pair.
-/
theorem size_queryPart_le (q : Query) :
    size (Url.marked '?' (queryPart q)) ≤ weight q.pairs + 1 := by
  rw [marked_queryPart]
  split
  · exact Nat.zero_le _
  · rw [Text.Utf8.size_cons_of_ascii (by decide), Query.text]
    by_cases hpairs : q.pairs = []
    · rw [hpairs]
      exact Nat.le_refl 1
    · have hweight := Url.size_pairsText hpairs
      omega

/-- A link is written at most three times as large as the text of the URL that it is made from, but
for marks, a port and an address, if its credentials and its path are and its parameters do not
outgrow those of the URL. Marks, an address in brackets and a port take 53 bytes, of which the marks
and the digit that the text has for certain pay for 15. -/
theorem ShareLink.IsOf.size_text_le {link : ShareLink} {url : Url} {text : String}
    (hof : link.IsOf url) (hread : Url.read text = .ok url)
    (hscheme : Url.IsOpaqueScheme url.scheme)
    (hparts : ∀ raw : RawParts, raw.IsReadAs url →
      size link.userinfo.toList ≤ 3 * size raw.userinfo ∧
        size link.path.toList ≤ 3 * size raw.path + 1)
    (hquery : weight link.query.pairs ≤ weight (Query.ofUrl url).pairs) :
    link.text.utf8ByteSize ≤ 3 * text.utf8ByteSize + 38 := by
  have hurl : url.IsNormal :=
    Url.isNormal_of_read hread hscheme.kind (host_ne_none_of_hostText? hof.host)
  obtain ⟨cs, h, hhost, hwrites, hserver⟩ := exists_writes_server hurl.authority hof.host
  obtain ⟨raw, hraw, hextent⟩ := Url.exists_rawParts hread hscheme hhost hof.port
  obtain ⟨huser, hpath⟩ := hparts raw hraw
  have hhost := hwrites.size_le (hhost ▸ hraw.host)
  have hport := Address.size_port_le (hurl.authority.port _ hof.port)
  have hparams := Query.weight_pairs_ofUrl_le hraw.query
  have hwritten := size_queryPart_le link.query
  have hfragment := hraw.size_fragment_le
  have hlabel : size (Url.marked '#' (fragmentPart link.fragment)) ≤
      size (Url.marked '#' url.fragment) := by
    rw [hof.fragment, fragmentPart, Url.size_marked (by decide), Url.size_marked (by decide)]
    exact Url.markedSize_filter_le _ _ _
  have hslashes : size "://".toList = 3 := rfl
  rw [RawParts.extent] at hextent
  rw [ShareLink.text, Text.Utf8.utf8ByteSize_ofList, ShareLink.chars_eq, ShareLink.tail, hserver,
    hof.scheme, Text.Utf8.utf8ByteSize_eq]
  simp (disch := decide) only [Text.Utf8.size_append, Text.Utf8.size_cons_of_ascii, hslashes]
  omega

/-- A canonical text is at most three times as long as its line, but for marks, a port and an
address. -/
theorem Protocol.size_canonical_le {p : Protocol} {line : String} {draft : Draft} (hp : p ≠ .vmess)
    (h : p.draft line = .ok draft) :
    draft.canonical.utf8ByteSize ≤ 3 * line.utf8ByteSize + 38 := by
  have hnone (raw : RawParts) : size "".toList ≤ 3 * size raw.path + 1 := Nat.zero_le _
  cases p with
  | vless =>
      obtain ⟨-, u, link, hread, hscheme, hlink, rfl⟩ := Vless.draft_eq_ok.1 h
      obtain ⟨hother, hurl⟩ := Vless.isNormal_of_link hread hscheme hlink
      have hof := Vless.isOf_of_link hurl hscheme hlink
      obtain ⟨-, server, -, rfl⟩ := Vless.link_eq_ok.1 hlink
      refine hof.size_text_le hread hother (fun raw hraw => ?_) (Vless.weight_rewrite_le _)
      exact ⟨Nat.le_trans (Nat.le_add_right _ _) hraw.size_userinfo_le, hraw.size_path_le⟩
  | vmess => exact absurd rfl hp
  | trojan =>
      obtain ⟨-, u, link, hread, hscheme, hlink, rfl⟩ := Trojan.draft_eq_ok.1 h
      have hof := Trojan.isOf_of_link hscheme hlink
      obtain ⟨hother, -⟩ := Trojan.isNormal_of_link hread hscheme hlink
      obtain ⟨-, server, -, rfl⟩ := Trojan.link_eq_ok.1 hlink
      refine hof.size_text_le hread hother (fun raw hraw => ?_) (Nat.le_refl _)
      exact ⟨Nat.le_trans (Nat.le_add_right _ _) hraw.size_userinfo_le, hnone raw⟩
  | shadowsocks =>
      obtain ⟨-, text, u, link, cipher, hexpand, hread, hscheme, hlink, rfl⟩ :=
        Shadowsocks.draft_eq_ok.1 h
      have hof := Shadowsocks.isOf_of_link hscheme hlink
      obtain ⟨hother, -⟩ := Shadowsocks.isNormal_of_link hread hscheme hlink
      have hexpanded := Shadowsocks.size_of_expandLegacy hexpand
      rw [← Text.Utf8.utf8ByteSize_eq, ← Text.Utf8.utf8ByteSize_eq] at hexpanded
      obtain ⟨-, password, hpair, -, server, -, rfl⟩ := Shadowsocks.link_eq_ok.1 hlink
      have hlink := hof.size_text_le hread hother (fun raw hraw =>
        ⟨String.toList_ofList ▸ Shadowsocks.size_credentialsText_le hraw hpair, hnone raw⟩)
        (Nat.le_refl _)
      exact hlink.trans (by omega)
  | hysteria2 =>
      obtain ⟨-, u, link, hread, hscheme, hlink, rfl⟩ := Hysteria2.draft_eq_ok.1 h
      have hof := Hysteria2.isOf_of_link hlink
      obtain ⟨-, server, -, rfl⟩ := Hysteria2.link_eq_ok.1 hlink
      refine hof.size_text_le hread hscheme.isOpaque (fun raw hraw => ?_) (Nat.le_refl _)
      rw [← Hysteria2.userinfoText_eq, Url.Authority.size_userinfoText]
      exact ⟨hraw.size_userinfo_le, hnone raw⟩

namespace Dispatcher

/-- The output for a line is at most three times as long as the line, but for 38 bytes. Where that
much fits into a line, the output is accepted again, and is its own output. The output for a VMess
line is at most eight times as long as the line. -/
theorem size_of_process (rules : Policy.RuleSet) (words : Policy.WordList) {p : Protocol}
    {line text : String} (hclaims : p.claims line = true)
    (hprocess : (ofRules rules words).process line = .ok text) :
    (p ≠ .vmess →
      text.utf8ByteSize ≤ 3 * line.utf8ByteSize + 38 ∧
        (3 * line.utf8ByteSize + 38 ≤ maxLineLength →
          (ofRules rules words).process text = .ok text)) ∧
      (p = .vmess → text.utf8ByteSize ≤ 8 * line.utf8ByteSize) := by
  constructor
  · intro hp
    obtain ⟨draft, params, hdraft, hparams, rfl⟩ := exists_params_of_process hclaims hprocess
    have hsize := Protocol.size_canonical_le hp hdraft
    refine ⟨hsize, fun hshort => ?_⟩
    have hlength := Nat.le_trans hsize hshort
    exact process_of_draft_eq hclaims hprocess hdraft
      (Protocol.draft_canonical hp hdraft hparams hlength)
      (Protocol.claims_canonical hp hdraft) hlength
  · rintro rfl
    obtain ⟨draft, hdraft, rfl⟩ := exists_draft_of_process hclaims hprocess
    obtain ⟨-, payload, fields, hpayload, -, hfields, hdraftOf⟩ := Vmess.draft_eq_ok.1 hdraft
    rw [Vmess.canonical_of_draftOf hdraftOf]
    exact Vmess.size_text_le hpayload hfields

theorem size_of_process_escaped :
    (ofRules .empty .empty).process "trojan://p@a.b:1#é" = .ok "trojan://p@a.b:1#%C3%A9" ∧
      (ofRules .empty .empty).process "trojan://p@a.b:1#%C3%A9" = .ok "trojan://p@a.b:1#%C3%A9" :=
  have hprocess : (ofRules .empty .empty).process "trojan://p@a.b:1#é" =
      .ok "trojan://p@a.b:1#%C3%A9" := rfl
  have hsize := size_of_process .empty .empty (p := .trojan) rfl hprocess
  ⟨hprocess, (hsize.1 (by decide)).2 (by decide)⟩

/-- A label comes out as its escapes. -/
theorem process_label {label : List Char} (hne : label ≠ []) (habove : ∀ c ∈ label, 0x20 < c.toNat)
    (hfits : (String.ofList ("trojan://p@a.b:1#".toList ++ label)).utf8ByteSize ≤ maxLineLength) :
    (ofRules .empty .empty).process (String.ofList ("trojan://p@a.b:1#".toList ++ label)) =
      .ok (String.ofList ("trojan://p@a.b:1#".toList ++
        Text.Percent.encode Url.Escaped.inFragment label)) := by
  have hclaims : Protocol.trojan.claims (String.ofList ("trojan://p@a.b:1#".toList ++ label)) =
      true := by
    refine List.any_eq_true.2 ⟨"trojan", List.mem_singleton_self _, hasScheme_iff.2 ?_⟩
    exact ⟨_, (congrArg (afterScheme? "trojan".toList) String.toList_ofList).trans rfl⟩
  have hscheme : Url.IsOpaqueScheme "trojan" := Protocol.isOpaqueScheme (p := .trojan) (by decide)
  have hserver : Url.IsServerText "a.b:1".toList (.name "a.b") (some 1) :=
    ⟨rfl, Text.forall_of_all (by decide)⟩
  have huser : ∀ c ∈ "p".toList, 0x20 < c.toNat ∧ Url.endsAuthority false c = false :=
    Text.forall_of_all (by decide)
  have htail : ∀ c, ('#' :: label).head? = some c →
      Url.endsAuthority false c = true ∧ 0x20 < c.toNat := by
    intro c hc
    obtain rfl := Option.some.inj hc
    decide
  have hclean : Url.cleanEnd ('#' :: label) = '#' :: label :=
    Url.cleanEnd_eq_self (List.forall_mem_cons.2 ⟨by decide, habove⟩)
  let fragment := String.ofList (Text.Percent.encode Url.Escaped.inFragment label)
  let url : Url := {
    scheme := "trojan"
    username := "p"
    host := some (.name "a.b")
    port := some 1
    fragment := some fragment }
  have hread : Url.read (String.ofList ("trojan://p@a.b:1#".toList ++ label)) = .ok url := by
    refine (Url.read_servedText hscheme huser hserver htail).trans ?_
    rw [Url.servedFrom, hclean]
    rfl
  have hne : fragment.isEmpty = false := by
    rw [Bool.eq_false_iff]
    intro hempty
    exact Text.Percent.encode_ne_nil hne
      (String.ofList_eq_empty_iff.1 (String.isEmpty_iff.1 hempty))
  have hlink : Trojan.link url = .ok ⟨"trojan", "p", ⟨"a.b", 1⟩, "", .empty, some fragment⟩ :=
    Trojan.link_eq_ok.2 ⟨rfl, ⟨"a.b", 1⟩, readServer_eq_ok.2 ⟨rfl, rfl, rfl, rfl⟩, rfl⟩
  have hdraft := Trojan.draft_eq_ok.2 ⟨hfits, url, _, hread, rfl, hlink, rfl⟩
  refine (process_eq_ok hclaims).2 ⟨hfits, _, hdraft, ?_⟩
  refine Screen.judge_eq_ok.2 ⟨Screen.checkLabel_without_words _ _, ⟨_, rfl, rfl⟩, ?_⟩
  simp only [ShareLink.text, ShareLink.chars, hne, fragment, String.toList_ofList]
  rfl

/-- A label beyond ASCII is accepted in a line that is short enough, and comes out three times as
long, so that the canonical text is too long to be read again. -/
theorem process_outgrows_bound :
    let line := String.ofList ("trojan://p@a.b:1#".toList ++
      (List.replicate 1400 "é".toList).flatten)
    let text := String.ofList ("trojan://p@a.b:1#".toList ++
      (List.replicate 1400 "%C3%A9".toList).flatten)
    (ofRules .empty .empty).process line = .ok text ∧ maxLineLength < text.utf8ByteSize ∧
      (ofRules .empty .empty).process text = .error .lineTooLong := by
  intro line text
  have hfront : Text.Utf8.size "trojan://p@a.b:1#".toList = 17 := rfl
  have hletter : Text.Utf8.size "é".toList = 2 := rfl
  have hescape : Text.Utf8.size "%C3%A9".toList = 6 := rfl
  have hencode : Text.Percent.encode Url.Escaped.inFragment "é".toList = "%C3%A9".toList := rfl
  have hline : line.utf8ByteSize ≤ maxLineLength := by
    rw [Text.Utf8.utf8ByteSize_ofList, Text.Utf8.size_append, Text.Utf8.size_flatten_replicate,
      hfront, hletter]
    decide
  have hlong : maxLineLength < text.utf8ByteSize := by
    rw [Text.Utf8.utf8ByteSize_ofList, Text.Utf8.size_append, Text.Utf8.size_flatten_replicate,
      hfront, hescape]
    decide
  have hlabel : ∀ c ∈ (List.replicate 1400 "é".toList).flatten, 0x20 < c.toNat := by
    intro c hc
    obtain ⟨cs, hcs, hc⟩ := List.mem_flatten.1 hc
    rw [List.eq_of_mem_replicate hcs] at hc
    exact Text.forall_of_all (P := fun c => 0x20 < c.toNat) (by decide) c hc
  have hne : (List.replicate 1400 "é".toList).flatten ≠ [] := by
    intro hnil
    have hsize := Text.Utf8.size_flatten_replicate 1400 "é".toList
    rw [hnil, hletter] at hsize
    exact absurd hsize (by decide)
  have hprocess := process_label hne hlabel hline
  rw [Text.Percent.encode_flatten_replicate, hencode] at hprocess
  refine ⟨hprocess, hlong, ?_⟩
  rw [process_eq, checkLength, if_pos hlong]
  rfl

end Dispatcher

end LinkSieve.Link
