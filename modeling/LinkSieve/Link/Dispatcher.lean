import LinkSieve.Link.Hysteria2
import LinkSieve.Link.Shadowsocks
import LinkSieve.Link.Trojan
import LinkSieve.Link.Vless
import LinkSieve.Link.Vmess

/-!
# Dispatching lines

A line belongs to the first reader on a list that claims it. A reader may be anyone's, with reasons
of its own to reject a line. Those of this library are the canonicalizers: a canonicalizer is a
protocol with the screen that its links have to pass, and it claims the lines that start with a
scheme of the protocol.
-/

namespace LinkSieve.Link

/-- The protocols whose links are understood. -/
inductive Protocol where
  | vless
  | vmess
  | trojan
  | shadowsocks
  | hysteria2
deriving DecidableEq, Repr

namespace Protocol

/-- The protocols in the order in which they are tried. -/
def all : List Protocol := [.vless, .vmess, .trojan, .shadowsocks, .hysteria2]

/-- The scheme of a protocol, which is also the name that rules use for it. -/
def scheme : Protocol → String
  | .vless => "vless"
  | .vmess => "vmess"
  | .trojan => "trojan"
  | .shadowsocks => "ss"
  | .hysteria2 => "hysteria2"

/-- All schemes that links of a protocol may have. -/
def schemes : Protocol → List String
  | .hysteria2 => ["hysteria2", "hy2"]
  | p => [p.scheme]

/-- The protocol with a given scheme. -/
def ofScheme? (scheme : String) : Option Protocol :=
  all.find? (·.scheme = scheme)

/-- The title of a protocol in messages. -/
def title : Protocol → String
  | .vless => Vless.title
  | .vmess => Vmess.title
  | .trojan => Trojan.title
  | .shadowsocks => Shadowsocks.title
  | .hysteria2 => Hysteria2.title

/-- Whether a line starts with a scheme of a protocol. -/
def claims (p : Protocol) (line : String) : Bool :=
  p.schemes.any (hasScheme line)

/-- Reads a line as a link of a protocol. -/
def draft : Protocol → String → Except Rejection Draft
  | .vless => Vless.draft
  | .vmess => Vmess.draft
  | .trojan => Trojan.draft
  | .shadowsocks => Shadowsocks.draft
  | .hysteria2 => Hysteria2.draft

end Protocol

/-- What can be registered to read lines: it says which lines are its own, and what becomes of
them. -/
structure Reader (ε : Type) where
  claims : String → Bool
  process : String → Except ε String

/-- Readers in the order in which they are tried. -/
structure Panel (ε : Type) where
  readers : List (Reader ε)

namespace Panel

variable {ε : Type}

/-- The panel without readers. -/
def empty : Panel ε := ⟨[]⟩

/-- A panel with one more reader, which is tried last. -/
def register (panel : Panel ε) (r : Reader ε) : Panel ε :=
  ⟨panel.readers ++ [r]⟩

/-- The outcome of a line, which the first reader that claims it decides. -/
def process [Refusal ε] (panel : Panel ε) (line : String) : Except ε String := do
  (checkLength line).mapError Refusal.ofRejection
  match panel.readers.find? (·.claims line) with
  | some r => r.process line
  | none => throw (Refusal.ofRejection .unsupported)

end Panel

/-- A protocol with the screen that its links have to pass. -/
structure Canonicalizer where
  protocol : Protocol
  screen : Screen
deriving DecidableEq, Repr

/-- The canonical text of a line that is a link of the protocol and passes the screen. -/
def Canonicalizer.process (c : Canonicalizer) (line : String) : Except Rejection String := do
  let draft ← c.protocol.draft line
  c.screen.judge c.protocol.title draft

/-- A canonicalizer as a reader among others. -/
def Canonicalizer.reader {ε : Type} [Refusal ε] (c : Canonicalizer) : Reader ε :=
  ⟨c.protocol.claims, fun line => (c.process line).mapError Refusal.ofRejection⟩

/-- Canonicalizers in the order in which they are tried. -/
structure Dispatcher where
  canonicalizers : List Canonicalizer
deriving DecidableEq, Repr

namespace Dispatcher

/-- The dispatcher that supports no protocol. -/
def empty : Dispatcher := ⟨[]⟩

/-- A dispatcher with one more canonicalizer, which is tried last. -/
def register (d : Dispatcher) (c : Canonicalizer) : Dispatcher :=
  ⟨d.canonicalizers ++ [c]⟩

/-- The dispatcher of all protocols under given rules and banned words. -/
def ofRules (rules : Policy.RuleSet) (words : Policy.WordList) : Dispatcher :=
  ⟨Protocol.all.map fun p => ⟨p, Screen.forProtocol rules p.scheme words⟩⟩

/-- The canonicalizers as a panel. -/
def panel (d : Dispatcher) : Panel Rejection :=
  ⟨d.canonicalizers.map Canonicalizer.reader⟩

/-- The canonical text of a line that is accepted. -/
def process (d : Dispatcher) (line : String) : Except Rejection String :=
  d.panel.process line

/-- The outcomes of lines, each on its own. -/
def processAll (d : Dispatcher) (lines : List String) : List (Except Rejection String) :=
  lines.map d.process

end Dispatcher

end LinkSieve.Link
