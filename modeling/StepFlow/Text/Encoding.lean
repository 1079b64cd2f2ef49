/-
  StepFlow.Text.Encoding — texts from bytes: the encodings of Unicode, and how JSON in bytes
  tells which one it is in.

  A mark at the start tells it, or else where the zero bytes stand among the first four:
  the first two characters of a document are ASCII. There are two ways to look at them
  (`told?` and `assumed`), for answers and for requests. Bytes that are not text in their
  encoding have no text, unless what cannot be read is replaced (`lenient`).
-/

namespace StepFlow.Text

inductive Encoding where
  | utf8
  | utf16 (bigEndian : Bool)
  | utf32 (bigEndian : Bool)
  deriving DecidableEq, Repr

namespace Encoding

def pairs (bigEndian : Bool) : List UInt8 → Option (List Nat)
  | [] => some []
  | [_] => none
  | a :: b :: rest =>
    let n := if bigEndian then a.toNat * 256 + b.toNat else b.toNat * 256 + a.toNat
    (pairs bigEndian rest).map (n :: ·)

def quads (bigEndian : Bool) : List UInt8 → Option (List Nat)
  | a :: b :: c :: d :: rest =>
    let n := if bigEndian then ((a.toNat * 256 + b.toNat) * 256 + c.toNat) * 256 + d.toNat
      else ((d.toNat * 256 + c.toNat) * 256 + b.toNat) * 256 + a.toNat
    (quads bigEndian rest).map (n :: ·)
  | [] => some []
  | _ => none

def scalar? (n : Nat) : Option Char := if n.isValidChar then some (Char.ofNat n) else none

def scalars : List Nat → Option (List Char)
  | [] => some []
  | n :: ns => do
    let c ← scalar? n
    let cs ← scalars ns
    pure (c :: cs)

/-- Characters from units of 16 bits: one, or a high and a low half. -/
def joinedPairs : List Nat → Option (List Char)
  | [] => some []
  | n :: rest =>
    if 0xD800 ≤ n ∧ n < 0xDC00 then
      match rest with
      | m :: rest =>
        if 0xDC00 ≤ m ∧ m < 0xE000 then do
          let cs ← joinedPairs rest
          pure (Char.ofNat (0x10000 + (n - 0xD800) * 0x400 + (m - 0xDC00)) :: cs)
        else none
      | [] => none
    else do
      let c ← scalar? n
      let cs ← joinedPairs rest
      pure (c :: cs)

def decode (e : Encoding) (bytes : List UInt8) : Option String :=
  match e with
  | .utf8 => String.fromUTF8? ⟨bytes.toArray⟩
  | .utf16 bigEndian => ((pairs bigEndian bytes).bind joinedPairs).map String.ofList
  | .utf32 bigEndian => ((quads bigEndian bytes).bind scalars).map String.ofList

/-- The encoding that a mark at the start tells, and the length of the mark. -/
def marked? (bytes : List UInt8) : Option (Encoding × Nat) :=
  let starts (mark : List UInt8) := mark.isPrefixOf bytes
  if starts [0xFF, 0xFE, 0, 0] then some (.utf32 false, 4)
  else if starts [0, 0, 0xFE, 0xFF] then some (.utf32 true, 4)
  else if starts [0xEF, 0xBB, 0xBF] then some (.utf8, 3)
  else if starts [0xFF, 0xFE] then some (.utf16 false, 2)
  else if starts [0xFE, 0xFF] then some (.utf16 true, 2)
  else none

/-- Told by two or three zeros in their places, or by none; nothing is told by others. -/
def told? (bytes : List UInt8) : Option (Encoding × Nat) :=
  match marked? bytes with
  | some m => some m
  | none =>
    match (bytes.take 4).map (· == 0) with
    | [true, false, true, false] => some (.utf16 true, 0)
    | [false, true, false, true] => some (.utf16 false, 0)
    | [true, true, true, false] => some (.utf32 true, 0)
    | [false, true, true, true] => some (.utf32 false, 0)
    | zeros => if zeros.any id then none else some (.utf8, 0)

/-- Told by a zero in one of the first two places, and otherwise UTF-8. -/
def assumed (bytes : List UInt8) : Encoding × Nat :=
  match marked? bytes with
  | some m => m
  | none =>
    match bytes with
    | [a, b] => if a == 0 then (.utf16 true, 0) else if b == 0 then (.utf16 false, 0) else (.utf8, 0)
    | a :: b :: c :: d :: _ =>
      if a == 0 then (if b == 0 then .utf32 true else .utf16 true, 0)
      else if b == 0 then (if c == 0 && d == 0 then .utf32 false else .utf16 false, 0)
      else (.utf8, 0)
    | _ => (.utf8, 0)

end Encoding

/-! ## Replacement -/

/-- How many bytes follow the first one of a character, and the bounds of the second. -/
def continuation? (lead : UInt8) : Option (Nat × UInt8 × UInt8) :=
  if 0xC2 ≤ lead ∧ lead ≤ 0xDF then some (1, 0x80, 0xBF)
  else if lead = 0xE0 then some (2, 0xA0, 0xBF)
  else if lead = 0xED then some (2, 0x80, 0x9F)
  else if 0xE1 ≤ lead ∧ lead ≤ 0xEF then some (2, 0x80, 0xBF)
  else if lead = 0xF0 then some (3, 0x90, 0xBF)
  else if 0xF1 ≤ lead ∧ lead ≤ 0xF3 then some (3, 0x80, 0xBF)
  else if lead = 0xF4 then some (3, 0x80, 0x8F)
  else none

/-- How many of the bytes continue a character that still lacks so many, the next one within
    these bounds. -/
def continued (lacking : Nat) (low high : UInt8) : List UInt8 → Nat
  | [] => 0
  | b :: bs =>
    match lacking with
    | 0 => 0
    | lacking + 1 => if low ≤ b ∧ b ≤ high then 1 + continued lacking 0x80 0xBF bs else 0

/-- The number of a character from its first byte and the six bits of each of the others. -/
def joinedBits (lead : UInt8) (others : List UInt8) : Nat :=
  let first := if others.length = 1 then lead.toNat - 0xC0
    else if others.length = 2 then lead.toNat - 0xE0
    else lead.toNat - 0xF0
  others.foldl (fun n b => n * 64 + (b.toNat - 0x80)) first

/-- The text of bytes in UTF-8, where the longest part of a character that does not end as one
    is replaced by U+FFFD, and so is any other byte that begins none. -/
def lenient : List UInt8 → List Char
  | [] => []
  | b :: bs =>
    if b < 0x80 then Char.ofNat b.toNat :: lenient bs
    else match continuation? b with
      | none => '\uFFFD' :: lenient bs
      | some (lacking, low, high) =>
        let n := continued lacking low high bs
        let c := if n = lacking then Char.ofNat (joinedBits b (bs.take n)) else '\uFFFD'
        c :: lenient (bs.drop n)
  termination_by bs => bs.length
  decreasing_by all_goals simp only [List.length_drop, List.length_cons]; omega

/-- Every byte as the character of its number. -/
def byBytes (bytes : List UInt8) : String := String.ofList (bytes.map fun b => Char.ofNat b.toNat)

/-- The text that bytes are, without a mark, if nothing else is known of them. -/
def guessed (bytes : List UInt8) : String :=
  let body := if [0xEF, 0xBB, 0xBF].isPrefixOf bytes then bytes.drop 3 else bytes
  (Encoding.utf8.decode body).getD (byBytes bytes)

/-- The text of an answer's body: a short one tells no encoding. -/
def ofAnswer (bytes : List UInt8) : String :=
  if bytes.length ≤ 3 then guessed bytes
  else match Encoding.told? bytes with
    | none => guessed bytes
    | some (e, skipped) => (e.decode (bytes.drop skipped)).getD (guessed bytes)

/-- The text of a request's body, if it is one. -/
def ofRequest (bytes : List UInt8) : Option String :=
  let (e, skipped) := Encoding.assumed bytes
  e.decode (bytes.drop skipped)

end StepFlow.Text
