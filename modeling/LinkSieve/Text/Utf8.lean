/-!
# UTF-8

The UTF-8 form of a text and the two ways back. Reading is one pass over the bytes that carries
the character under way; it yields a character for each complete form and a gap for each longest
stretch of bytes that begins a form and breaks off. The lossy reading puts the replacement
character into the gaps, the strict one refuses them.

## Implementation notes

The pass consumes one byte at a time, so that what it does on `a ++ b` is what it does on `a`
followed by what it does on `b` from the state reached.
-/

namespace LinkSieve.Text.Utf8

/-- The UTF-8 form of a text. -/
def encode (cs : List Char) : List UInt8 :=
  cs.flatMap String.utf8EncodeChar

/-- The number of bytes of the UTF-8 form of a text. -/
def size (cs : List Char) : Nat :=
  (encode cs).length

/-- A character under way: the bits read so far, how many bytes follow the next one, and the
range the next one has to lie in. -/
structure Pending where
  bits : Nat
  more : Nat
  low : UInt8 := 0x80
  high : UInt8 := 0xBF
deriving Repr, DecidableEq

/-- What a byte says where a character has to start. -/
def start (b : UInt8) : List (Option Char) × Option Pending :=
  if b < 0x80 then ([some (Char.ofNat b.toNat)], none)
  else if b < 0xC2 then ([none], none)
  else if b < 0xE0 then ([], some ⟨b.toNat - 0xC0, 0, 0x80, 0xBF⟩)
  else if b = 0xE0 then ([], some ⟨0, 1, 0xA0, 0xBF⟩)
  else if b = 0xED then ([], some ⟨0xD, 1, 0x80, 0x9F⟩)
  else if b < 0xF0 then ([], some ⟨b.toNat - 0xE0, 1, 0x80, 0xBF⟩)
  else if b = 0xF0 then ([], some ⟨0, 2, 0x90, 0xBF⟩)
  else if b < 0xF4 then ([], some ⟨b.toNat - 0xF0, 2, 0x80, 0xBF⟩)
  else if b = 0xF4 then ([], some ⟨4, 2, 0x80, 0x8F⟩)
  else ([none], none)

/-- One byte of the pass: what it completes, and the character then under way. A byte that cannot
continue the character under way leaves a gap and starts afresh. -/
def step (state : Option Pending) (b : UInt8) : List (Option Char) × Option Pending :=
  match state with
  | none => start b
  | some p =>
    if p.low ≤ b && b ≤ p.high then
      let bits := p.bits * 64 + (b.toNat - 0x80)
      match p.more with
      | 0 => ([some (Char.ofNat bits)], none)
      | more + 1 => ([], some ⟨bits, more, 0x80, 0xBF⟩)
    else
      let (out, next) := start b
      (none :: out, next)

/-- The pass over the bytes from a given state; bytes that end within a character leave a gap. -/
def scanFrom : Option Pending → List UInt8 → List (Option Char)
  | none, [] => []
  | some _, [] => [none]
  | state, b :: rest => (step state b).1 ++ scanFrom (step state b).2 rest

/-- The characters of a byte string, with `none` for each gap. -/
def scan (bytes : List UInt8) : List (Option Char) :=
  scanFrom none bytes

/-- The character that stands for bytes that are no text. -/
def replacement : Char := '\uFFFD'

/-- Reads bytes as text, with the replacement character in each gap. -/
def decodeLossy (bytes : List UInt8) : List Char :=
  (scan bytes).map (·.getD replacement)

/-- Reads bytes as text if they have no gap. -/
def decode? (bytes : List UInt8) : Option (List Char) :=
  (scan bytes).mapM id

end LinkSieve.Text.Utf8
