import Rech.Text.Quoted

/-!
# Strict UTF-8

Bytes are decoded to the end or to the first malformed sequence, which is
reported with its offset, its bytes that were still in order, and what is
wrong with it. Overlong forms, surrogates and code points above U+10FFFF are
malformed.
-/

namespace Rech.Utf8

inductive Fault
  | startByte
  | continuationByte
  | endOfData
deriving DecidableEq, Repr

def Fault.reason : Fault → String
  | .startByte => "invalid start byte"
  | .continuationByte => "invalid continuation byte"
  | .endOfData => "unexpected end of data"

/-- A malformed sequence: `length` bytes from `offset` on, of which `lead` is
the first. -/
structure Malformed where
  offset : Nat
  lead : UInt8
  length : Nat
  fault : Fault
deriving DecidableEq, Repr

def Malformed.message (malformed : Malformed) : String :=
  let extent :=
    if malformed.length = 1 then
      let byte := String.ofList (Text.hexDigits 2 malformed.lead.toNat)
      s!"byte 0x{byte} in position {malformed.offset}"
    else s!"bytes in position {malformed.offset}-{malformed.offset + malformed.length - 1}"
  s!"'utf-8' codec can't decode {extent}: {malformed.fault.reason}"

/-- The ranges of the bytes that have to follow a lead byte. They are narrower
behind the leads of overlong forms, surrogates and too large code points. -/
def following (lead : Nat) : Option (List (Nat × Nat)) :=
  if lead < 0x80 then some []
  else if lead < 0xC2 then none
  else if lead < 0xE0 then some [(0x80, 0xBF)]
  else if lead = 0xE0 then some [(0xA0, 0xBF), (0x80, 0xBF)]
  else if lead = 0xED then some [(0x80, 0x9F), (0x80, 0xBF)]
  else if lead < 0xF0 then some [(0x80, 0xBF), (0x80, 0xBF)]
  else if lead = 0xF0 then some [(0x90, 0xBF), (0x80, 0xBF), (0x80, 0xBF)]
  else if lead < 0xF4 then some [(0x80, 0xBF), (0x80, 0xBF), (0x80, 0xBF)]
  else if lead = 0xF4 then some [(0x80, 0x8F), (0x80, 0xBF), (0x80, 0xBF)]
  else none

/-- Checks bytes against the ranges they have to lie in. A failure tells how
many bytes were in order before it. -/
def check : List (Nat × Nat) → List UInt8 → Except (Nat × Fault) Unit
  | [], _ => .ok ()
  | _ :: _, [] => .error (0, .endOfData)
  | range :: ranges, byte :: bytes =>
    if range.1 ≤ byte.toNat && byte.toNat ≤ range.2 then
      match check ranges bytes with
      | .ok () => .ok ()
      | .error (count, fault) => .error (count + 1, fault)
    else .error (0, .continuationByte)

def leadBits (count lead : Nat) : Nat :=
  match count with
  | 0 => lead
  | 1 => lead - 0xC0
  | 2 => lead - 0xE0
  | _ => lead - 0xF0

def codePoint (lead : UInt8) (followers : List UInt8) : Nat :=
  followers.foldl (fun bits byte => bits * 64 + (byte.toNat - 0x80))
    (leadBits followers.length lead.toNat)

def decodeFrom (offset : Nat) : List UInt8 → Except Malformed (List Char)
  | [] => .ok []
  | lead :: bytes =>
    match following lead.toNat with
    | none => .error ⟨offset, lead, 1, .startByte⟩
    | some ranges =>
      match check ranges bytes with
      | .error (count, fault) => .error ⟨offset, lead, count + 1, fault⟩
      | .ok () =>
        match decodeFrom (offset + 1 + ranges.length) (bytes.drop ranges.length) with
        | .error malformed => .error malformed
        | .ok text => .ok (Char.ofNat (codePoint lead (bytes.take ranges.length)) :: text)
termination_by bytes => bytes.length
decreasing_by simp only [List.length_drop, List.length_cons]; omega

def decode (bytes : List UInt8) : Except Malformed (List Char) :=
  decodeFrom 0 bytes

end Rech.Utf8
