import TypedSexp.Text.Hex

/-!
# UTF-8

Files hold UTF-8 and are read strictly: a byte sequence that is not the shortest
form of a code point is refused, with the bytes at fault and the reason.
-/

namespace TypedSexp.Text.Utf8

/-- Why bytes are no UTF-8. -/
inductive Reason where
  /-- No sequence starts with this byte. -/
  | start
  /-- The byte after these does not continue the sequence they start. -/
  | continuation
  /-- The bytes end inside a sequence. -/
  | cut
  deriving DecidableEq, Repr

/-- The bytes at fault, by the offsets of the first and the last, and the first
of them. -/
structure Fault where
  first : Nat
  last : Nat
  byte : UInt8
  reason : Reason
  deriving DecidableEq, Repr

/-- The wording of a reason. -/
def Reason.message : Reason → String
  | .start => "invalid start byte"
  | .continuation => "invalid continuation byte"
  | .cut => "unexpected end of data"

/-- The wording of a fault. A single byte is shown, several only placed. -/
def Fault.message (f : Fault) : String :=
  if f.first = f.last then
    s!"'utf-8' codec can't decode byte 0x{String.ofList (hex 2 f.byte.toNat)} in position {f.first}: {f.reason.message}"
  else
    s!"'utf-8' codec can't decode bytes in position {f.first}-{f.last}: {f.reason.message}"

/-- The range of each byte that has to follow a first byte. The first follower
is bounded more tightly where a wider range would admit a longer form than
needed, a surrogate or a number beyond the last code point. -/
def followers? (lead : Nat) : Option (List (Nat × Nat)) :=
  let any := (0x80, 0xbf)
  if lead < 0x80 then some []
  else if lead < 0xc2 then none
  else if lead < 0xe0 then some [any]
  else if lead = 0xe0 then some [(0xa0, 0xbf), any]
  else if lead = 0xed then some [(0x80, 0x9f), any]
  else if lead < 0xf0 then some [any, any]
  else if lead = 0xf0 then some [(0x90, 0xbf), any, any]
  else if lead < 0xf4 then some [any, any, any]
  else if lead = 0xf4 then some [(0x80, 0x8f), any, any]
  else none

/-- How far bytes stay within the given ranges: all of them, or the number that
do and what stopped them. -/
def follow : List (Nat × Nat) → List UInt8 → Option (Nat × Reason)
  | [], _ => none
  | _ :: _, [] => some (0, .cut)
  | r :: ranges, b :: bytes =>
    if r.1 ≤ b.toNat ∧ b.toNat ≤ r.2 then
      (follow ranges bytes).map fun (n, why) => (n + 1, why)
    else some (0, .continuation)

/-- The code point of a first byte and its followers. -/
def codePoint (lead : Nat) (tail : List UInt8) : Nat :=
  let bits := match tail.length with
    | 0 => lead
    | 1 => lead - 0xc0
    | 2 => lead - 0xe0
    | _ => lead - 0xf0
  tail.foldl (fun n b => 64 * n + (b.toNat - 0x80)) bits

/-- The characters of bytes that start at offset `pos`. -/
def decodeFrom (pos : Nat) : List UInt8 → Except Fault (List Char)
  | [] => .ok []
  | lead :: rest =>
    match followers? lead.toNat with
    | none => .error ⟨pos, pos, lead, .start⟩
    | some ranges =>
      match follow ranges rest with
      | some (n, why) => .error ⟨pos, pos + n, lead, why⟩
      | none =>
        let c := Char.ofNat (codePoint lead.toNat (rest.take ranges.length))
        (decodeFrom (pos + 1 + ranges.length) (rest.drop ranges.length)).map (c :: ·)
termination_by bytes => bytes.length
decreasing_by simp only [List.length_cons, List.length_drop]; omega

/-- The text that bytes stand for. -/
def decode (bytes : ByteArray) : Except Fault String :=
  (decodeFrom 0 bytes.toList).map String.ofList

end TypedSexp.Text.Utf8
