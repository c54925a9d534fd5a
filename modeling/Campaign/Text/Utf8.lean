/-!
# UTF-8

Bytes read as text. A byte sequence is cut into pieces, each a character or the longest start of
a character that the next byte does not continue. Such a start, and a byte that can start no
character, are damage: the lenient reading puts U+FFFD in their place, the strict one refuses them.
-/

namespace Campaign.Text

/-- A character begun: its bits so far, how many bytes it still lacks, and the least and the
greatest byte that may come next. -/
structure Begun where
  bits : Nat
  lacking : Nat
  least : Nat
  greatest : Nat
deriving Repr

/-- What the first byte of a piece is. -/
inductive FirstByte where
  | whole (c : Char)
  | start (begun : Begun)
  | damage
deriving Repr

/-- Reads the first byte of a piece. The bounds on the second byte keep out overlong forms,
surrogates and code points above U+10FFFF. -/
def FirstByte.ofByte (b : UInt8) : FirstByte :=
  let n := b.toNat
  if n < 0x80 then .whole (Char.ofNat n)
  else if n < 0xC2 then .damage
  else if n < 0xE0 then .start ⟨n % 32, 1, 0x80, 0xBF⟩
  else if n = 0xE0 then .start ⟨0, 2, 0xA0, 0xBF⟩
  else if n = 0xED then .start ⟨13, 2, 0x80, 0x9F⟩
  else if n < 0xF0 then .start ⟨n % 16, 2, 0x80, 0xBF⟩
  else if n = 0xF0 then .start ⟨0, 3, 0x90, 0xBF⟩
  else if n < 0xF4 then .start ⟨n % 8, 3, 0x80, 0xBF⟩
  else if n = 0xF4 then .start ⟨4, 3, 0x80, 0x8F⟩
  else .damage

/-- The pieces read so far, last first, and the character begun, if any. `none` is damage. -/
structure Utf8Reading where
  pieces : List (Option Char)
  begun : Option Begun
deriving Repr

namespace Utf8Reading

/-- Reads `b` as the first byte of a piece. -/
def begin (pieces : List (Option Char)) (b : UInt8) : Utf8Reading :=
  match FirstByte.ofByte b with
  | .whole c => ⟨some c :: pieces, none⟩
  | .start begun => ⟨pieces, some begun⟩
  | .damage => ⟨none :: pieces, none⟩

/-- Reads one more byte. One that does not continue the character begun starts a new piece. -/
def step (r : Utf8Reading) (b : UInt8) : Utf8Reading :=
  match r.begun with
  | none => begin r.pieces b
  | some g =>
    if g.least ≤ b.toNat && b.toNat ≤ g.greatest then
      let bits := g.bits * 64 + b.toNat % 64
      if g.lacking ≤ 1 then ⟨some (Char.ofNat bits) :: r.pieces, none⟩
      else ⟨r.pieces, some ⟨bits, g.lacking - 1, 0x80, 0xBF⟩⟩
    else begin (none :: r.pieces) b

/-- The pieces in order, once the bytes have ended. -/
def finish (r : Utf8Reading) : List (Option Char) :=
  match r.begun with
  | none => r.pieces.reverse
  | some _ => (none :: r.pieces).reverse

end Utf8Reading

/-- The pieces of a byte sequence in order; `none` is damage. -/
def utf8Pieces (bytes : List UInt8) : List (Option Char) :=
  (bytes.foldl Utf8Reading.step ⟨[], none⟩).finish

/-- The text of `bytes`, with U+FFFD in place of each damaged piece. -/
def ofUtf8Lenient (bytes : List UInt8) : List Char :=
  (utf8Pieces bytes).map (·.getD '\uFFFD')

/-- The text of `bytes`, if nothing in them is damaged. -/
def ofUtf8? (bytes : List UInt8) : Option (List Char) :=
  (utf8Pieces bytes).mapM id

/-- The bytes of a text. -/
def toUtf8 (s : String) : List UInt8 :=
  s.toUTF8.toList

end Campaign.Text
