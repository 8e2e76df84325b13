import Retype.Text.Tables

/-! Character classes and case of any Unicode character: ASCII is decided here, the rest by the tables. -/

namespace Retype.Text

/-- Whether `c` belongs to a row `(first, last, step)` of a table. -/
def inTable (rows : List (Nat × Nat × Nat)) (c : Char) : Bool :=
  rows.any fun (first, last, step) =>
    first ≤ c.toNat && c.toNat ≤ last && (c.toNat - first) % step == 0

def isAscii (c : Char) : Bool := c.toNat < 0x80

/-- The characters with the `White_Space` property. -/
def isBlank (c : Char) : Bool :=
  let n := c.toNat
  (0x9 ≤ n && n ≤ 0xd) || n == 0x20 || n == 0x85 || n == 0xa0 || n == 0x1680 ||
    (0x2000 ≤ n && n ≤ 0x200a) || n == 0x2028 || n == 0x2029 || n == 0x202f || n == 0x205f ||
    n == 0x3000

def isIdentStart (c : Char) : Bool :=
  if isAscii c then c.isAlpha || c == '_' else inTable Tables.identStart c

def isIdentContinue (c : Char) : Bool :=
  if isAscii c then c.isAlphanum || c == '_'
  else inTable Tables.identStart c || inTable Tables.identContinueOnly c

theorem isIdentContinue_of_isIdentStart {c : Char} (h : isIdentStart c = true) :
    isIdentContinue c = true := by
  unfold isIdentStart at h
  unfold isIdentContinue
  split at h
  · rename_i hc
    simp only [hc, if_true, Char.isAlphanum, Bool.or_eq_true] at h ⊢
    exact h.imp Or.inl id
  · rename_i hc
    simp [hc, h]

def isAlphanumeric (c : Char) : Bool :=
  if isAscii c then c.isAlphanum else inTable Tables.alphanumeric c

def isUpper (c : Char) : Bool :=
  if isAscii c then c.isUpper else inTable Tables.uppercase c

def isLower (c : Char) : Bool :=
  if isAscii c then c.isLower else inTable Tables.lowercase c

/-- The shift of the row that holds `c`, applied to `c`. -/
def shifted? (rows : List (Nat × Nat × Nat × Int)) (c : Char) : Option Char :=
  (rows.find? fun (first, last, step, _) =>
    first ≤ c.toNat && c.toNat ≤ last && (c.toNat - first) % step == 0).map fun (_, _, _, d) =>
    Char.ofNat (Int.toNat (c.toNat + d))

def spread? (rows : List (Nat × List Nat)) (c : Char) : Option (List Char) :=
  (rows.find? (·.1 == c.toNat)).map fun (_, cs) => cs.map Char.ofNat

/-- The upper case of a character, which may be several characters. -/
def toUpper (c : Char) : List Char :=
  if isAscii c then [c.toUpper]
  else (spread? Tables.toUpperMany c).getD [(shifted? Tables.toUpper c).getD c]

/-- The lower case of a character, which may be several characters. -/
def toLower (c : Char) : List Char :=
  if isAscii c then [c.toLower]
  else (spread? Tables.toLowerMany c).getD [(shifted? Tables.toLower c).getD c]

/-- Whether `c` is shown as itself in quoted text: neither a control or an unassigned point nor a mark
that joins the character before it. -/
def isPlain (c : Char) : Bool :=
  if isAscii c then 0x20 ≤ c.toNat && c.toNat < 0x7f
  else !inTable Tables.graphemeExtend c && !inTable Tables.unprintable c

end Retype.Text
