import LinkSieve.Proofs.Link.Filtering
import Mathlib.Data.List.Nodup

/-!
# The order of canonicalizers

At most one protocol claims a line, so canonicalizers of different protocols may be tried in any
order. A dispatcher may also be given readers of lines that no protocol of this library knows. One
that is registered late has no say on a line that was claimed before: it only decides lines that
were not supported so far.
-/

namespace LinkSieve.Link

namespace Dispatcher

variable {cs ds : List Canonicalizer} {line : String}

/-- Among canonicalizers of different protocols, the first that claims a line is the only one. -/
theorem find?_claims_eq_some_iff (hcs : (cs.map (·.protocol)).Nodup) {c : Canonicalizer} :
    cs.find? (·.protocol.claims line) = some c ↔ c ∈ cs ∧ c.protocol.claims line = true := by
  constructor
  · intro h
    exact ⟨List.mem_of_find?_eq_some h,
      List.find?_some (p := fun c : Canonicalizer => c.protocol.claims line) h⟩
  · rintro ⟨hmem, hclaims⟩
    cases hfind : cs.find? (·.protocol.claims line) with
    | none => exact absurd hclaims (List.find?_eq_none.1 hfind c hmem)
    | some found =>
        have hfound : found.protocol.claims line = true :=
          List.find?_some (p := fun c : Canonicalizer => c.protocol.claims line) hfind
        have hprotocol : found.protocol = c.protocol := Protocol.eq_of_claims hfound hclaims
        rw [List.inj_on_of_nodup_map hcs (List.mem_of_find?_eq_some hfind) hmem hprotocol]

theorem process_perm (hcs : (cs.map (·.protocol)).Nodup) (hperm : cs.Perm ds) (line : String) :
    process ⟨cs⟩ line = process ⟨ds⟩ line := by
  have hds : (ds.map (·.protocol)).Nodup := (hperm.map _).nodup_iff.1 hcs
  have hfind : cs.find? (·.protocol.claims line) = ds.find? (·.protocol.claims line) := by
    apply Option.ext
    intro c
    rw [find?_claims_eq_some_iff hcs, find?_claims_eq_some_iff hds, hperm.mem_iff]
  rw [process_eq, process_eq, hfind]

end Dispatcher

namespace Panel

variable {ε : Type} {panel : Panel ε} {line : String}

/-- A panel with more readers, registered one after another. -/
def registerAll (panel : Panel ε) (rs : List (Reader ε)) : Panel ε :=
  rs.foldl register panel

theorem registerAll_eq (panel : Panel ε) (rs : List (Reader ε)) :
    panel.registerAll rs = ⟨panel.readers ++ rs⟩ := by
  induction rs generalizing panel with
  | nil => rw [List.append_nil]; rfl
  | cons r rs ih =>
      have hrest := ih (panel.register r)
      rw [register, List.append_assoc, List.singleton_append] at hrest
      exact hrest

variable [Refusal ε]

/-- A line that is supported is too long, or some reader claims it. -/
theorem exists_of_not_unsupported (h : ¬IsRejected .unsupported (panel.process line)) :
    (∃ e, checkLength line = .error e) ∨
      ∃ r, panel.readers.find? (·.claims line) = some r := by
  cases hlength : checkLength line with
  | error e => exact .inl ⟨e, rfl⟩
  | ok =>
      cases hfind : panel.readers.find? (·.claims line) with
      | some r => exact .inr ⟨r, rfl⟩
      | none =>
          rw [process, hlength, hfind] at h
          have hkind := Refusal.kind_ofRejection (ε := ε) .unsupported
          exact absurd ⟨Refusal.ofRejection .unsupported, rfl, hkind⟩ h

/-- One more reader leaves the outcome of a supported line as it is. -/
theorem process_register (h : ¬IsRejected .unsupported (panel.process line)) (r : Reader ε) :
    (panel.register r).process line = panel.process line := by
  rw [process, process]
  rcases exists_of_not_unsupported h with ⟨e, he⟩ | ⟨found, hfound⟩
  · rw [he]
    rfl
  · have hfind : (panel.register r).readers.find? (·.claims line) = some found := by
      rw [register, List.find?_append, hfound, Option.some_or]
    rw [hfind, hfound]

/-- The outcome of a supported line stays what it is, however many readers follow. -/
theorem process_registerAll (h : ¬IsRejected .unsupported (panel.process line))
    (rs : List (Reader ε)) : (panel.registerAll rs).process line = panel.process line := by
  induction rs generalizing panel with
  | nil => rfl
  | cons r rs ih =>
      have hstep := process_register h r
      rw [← hstep] at h ⊢
      exact ih h

end Panel

namespace Dispatcher

/-- Among readers with reasons of any type, the canonicalizers of a dispatcher, registered one after
another, treat a line as the dispatcher does. -/
theorem process_registerAll_reader {ε : Type} [Refusal ε] (d : Dispatcher) (line : String) :
    (Panel.empty.registerAll (d.canonicalizers.map Canonicalizer.reader)).process line =
      (d.process line).mapError (Refusal.ofRejection : Rejection → ε) := by
  have hfind : (d.canonicalizers.map (Canonicalizer.reader (ε := ε))).find? (·.claims line) =
      (d.canonicalizers.find? (·.protocol.claims line)).map Canonicalizer.reader :=
    List.find?_map
  rw [Panel.registerAll_eq, Panel.process, process_eq]
  simp only [Panel.empty, List.nil_append, hfind]
  cases checkLength line with
  | error r => rfl
  | ok =>
      cases d.canonicalizers.find? (·.protocol.claims line) with
      | none => rfl
      | some c => rfl

/-- At most one protocol claims a line. So the order of canonicalizers of different protocols is of
no consequence, and in a sequence of registrations, of whatever readers with whatever reasons and
with whatever repetitions, one more changes no outcome but that a line is not supported. -/
theorem process_precedence :
    (∀ (p q : Protocol) (line : String), p.claims line = true → q.claims line = true → p = q) ∧
      (∀ cs ds : List Canonicalizer, (cs.map (·.protocol)).Nodup → cs.Perm ds →
        ∀ line, process ⟨cs⟩ line = process ⟨ds⟩ line) ∧
      (∀ (ε : Type) [Refusal ε] (rs : List (Reader ε)) (line : String),
        ¬IsRejected .unsupported ((Panel.empty.registerAll rs).process line) →
          (∀ r, ((Panel.empty.registerAll rs).register r).process line =
            (Panel.empty.registerAll rs).process line) ∧
          ∀ more, ((Panel.empty.registerAll rs).registerAll more).process line =
            (Panel.empty.registerAll rs).process line) ∧
      ∀ (d : Dispatcher) (line : String), d.process line =
        (Panel.empty.registerAll (d.canonicalizers.map Canonicalizer.reader)).process line :=
  ⟨fun _ _ _ hp hq => Protocol.eq_of_claims hp hq,
    fun _ _ hcs hperm => process_perm hcs hperm,
    fun _ _ _ _ h => ⟨Panel.process_register h, Panel.process_registerAll h⟩,
    fun d line => ((process_registerAll_reader d line).trans (Outcome.mapError_id _)).symm⟩

/-- A line between two canonicalizers, and one that keeps its outcome when a reader that rejects
every line, for a reason of its own, comes after a canonicalizer and its repetition. -/
theorem process_precedence_repeated :
    (Protocol.hysteria2.claims "HY2://a.b" = true ∧ Protocol.hysteria2 = Protocol.hysteria2) ∧
      (process ⟨[⟨.shadowsocks, .pass⟩, ⟨.hysteria2, .pass⟩]⟩ "HY2://a.b" = .error .missingAuth ∧
        process ⟨[⟨.hysteria2, .pass⟩, ⟨.shadowsocks, .pass⟩]⟩ "HY2://a.b" =
          .error .missingAuth) ∧
      ((Panel.empty.registerAll (List.replicate 2
          (Canonicalizer.mk .hysteria2 .pass).reader)).register
            ⟨fun _ => true, fun _ => .error ⟨.malformed, "not today"⟩⟩).process "HY2://a.b" =
        .error (Objection.mk .missingField Rejection.missingAuth.reason) := by
  have hclaims : Protocol.hysteria2.claims "HY2://a.b" = true := rfl
  have hnodup : (([⟨.shadowsocks, .pass⟩, ⟨.hysteria2, .pass⟩] : List Canonicalizer).map
      (·.protocol)).Nodup := by decide
  have hfirst : process ⟨[⟨.shadowsocks, .pass⟩, ⟨.hysteria2, .pass⟩]⟩ "HY2://a.b" =
      .error .missingAuth := rfl
  have hrepeated : (Panel.empty.registerAll (List.replicate 2
      (Canonicalizer.mk .hysteria2 .pass).reader)).process "HY2://a.b" =
        .error (Objection.mk .missingField Rejection.missingAuth.reason) := rfl
  have hsupported : ¬IsRejected .unsupported ((Panel.empty.registerAll (List.replicate 2
      (Canonicalizer.mk .hysteria2 .pass).reader)).process "HY2://a.b" :
        Except Objection String) := by
    rw [hrepeated]
    rintro ⟨r, hr, hkind⟩
    cases hr
    cases hkind
  obtain ⟨hunique, hperm, hregister, -⟩ := process_precedence
  refine ⟨⟨hclaims, hunique _ _ _ hclaims hclaims⟩, ⟨hfirst, ?_⟩, ?_⟩
  · rw [← hperm _ _ hnodup (List.Perm.swap _ _ _), hfirst]
  · rw [(hregister _ _ _ hsupported).1, hrepeated]

end Dispatcher

end LinkSieve.Link
