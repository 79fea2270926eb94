import LinkSieve.Proofs.Link.RoundTrip
import LinkSieve.Proofs.Link.Vmess

/-!
# What canonical links are made of

A canonical link starts with a scheme of its protocol, in lower case, and is made of characters of
ASCII that show, whatever stood in the label, the path, the credentials or the payload of the line.
For the links that are URLs this holds of any URL in its normal form; the other format is Base64.
-/

namespace LinkSieve.Link

namespace Protocol

variable {p : Protocol} {line : String} {draft : Draft}

/-- A text that looks like a link of a protocol in canonical form. -/
structure IsWritten (p : Protocol) (text : String) : Prop where
  scheme : ∃ s ∈ p.schemes, ∃ rest, text.toList = s.toList ++ ("://".toList ++ rest)
  graphic : ∀ c ∈ text.toList, Url.IsGraphic c

theorem isWritten_text {link : ShareLink} {url : Url} {s : String} (hscheme : s ∈ p.schemes)
    (hlink : link.scheme = s) (h : link.Spells url) : p.IsWritten link.text := by
  refine ⟨⟨s, hscheme, link.userinfo.toList ++ '@' :: (link.server.text ++ link.tail), ?_⟩,
    h.isGraphic⟩
  rw [ShareLink.text, ShareLink.chars_eq, String.toList_ofList, hlink]
  simp only [List.append_assoc, List.cons_append]

end Protocol

theorem Vmess.isWritten_text (fields : Fields) : Protocol.vmess.IsWritten (text fields) := by
  have hsymbol : ∀ n < 64, Url.IsGraphic (Base64.symbol false n) := by decide
  have hstart : ∀ c ∈ "vmess".toList ++ "://".toList, Url.IsGraphic c :=
    Text.forall_of_all (by decide)
  refine ⟨⟨"vmess", by decide, payloadOf fields, toList_text fields⟩, ?_⟩
  intro c hc
  rw [toList_text, ← List.append_assoc, List.mem_append] at hc
  rcases hc with hc | hc
  · exact hstart c hc
  · rw [payloadOf, Base64.encodeText] at hc
    rcases Base64.mem_encode _ _ hc with ⟨n, hn, rfl⟩ | rfl
    · exact hsymbol n hn
    · decide

/-- The canonical text of a draft is a link of its protocol. -/
theorem Protocol.isWritten_canonical {p : Protocol} {line : String} {draft : Draft}
    (h : p.draft line = .ok draft) : p.IsWritten draft.canonical := by
  by_cases hp : p = .vmess
  · subst hp
    obtain ⟨-, payload, fields, -, -, -, hdraft⟩ := Vmess.draft_eq_ok.1 h
    rw [Vmess.canonical_of_draftOf hdraft]
    exact Vmess.isWritten_text fields
  · obtain ⟨link, hmakes, htext⟩ := exists_makes_of_draft hp h
    obtain ⟨url, hspells⟩ := hmakes.exists_spells
    rw [htext]
    exact isWritten_text hmakes.mem_schemes rfl hspells

namespace Dispatcher

variable {rules : Policy.RuleSet} {words : Policy.WordList} {line text : String}

/-- A line that is accepted is one that some protocol claims. -/
theorem exists_claims_of_process (h : (ofRules rules words).process line = .ok text) :
    ∃ p : Protocol, p.claims line = true := by
  rw [process_eq] at h
  obtain ⟨-, -, h⟩ := Outcome.bind_eq_ok.1 h
  split at h
  · rename_i c hfind
    exact ⟨c.protocol, List.find?_some (p := fun c : Canonicalizer => c.protocol.claims line) hfind⟩
  · cases h

/-- What a line is accepted as is a link of some protocol. -/
theorem exists_isWritten_of_process (h : (ofRules rules words).process line = .ok text) :
    ∃ p : Protocol, p.IsWritten text := by
  obtain ⟨p, hclaims⟩ := exists_claims_of_process h
  obtain ⟨draft, hdraft, rfl⟩ := exists_draft_of_process hclaims h
  exact ⟨p, Protocol.isWritten_canonical hdraft⟩

end Dispatcher

end LinkSieve.Link
