/-! Layout of text on lines of limited width.  A text consists of words and of gaps, where a line may end, in
nested boxes.  A box whose content fits on the rest of the line has no line ends.  Of one that does not, an
aligned box ends the line at every gap of its own, and a filled box only where what comes up to the next gap
does not fit.  Widths are counted in bytes. -/

namespace Retype.Format

/-- A place where the line may end. -/
structure Gap where
  /-- The number of blanks if the line goes on. -/
  blanks : Nat
  /-- How far the next line moves from the indentation of the box. -/
  offset : Int
  /-- What is written at the end of the line, if it ends here. -/
  before : Option Char
  /-- What is written at the start of the next line, if the line ends here. -/
  after : String
  /-- What is written if the line goes on. -/
  flat : Option Char
  /-- Whether the gap is left out where it would stand last in its box. -/
  inner : Bool
  /-- Whether the line always goes on. -/
  fixed : Bool

inductive Style
  | aligned
  | filled
  deriving DecidableEq, Repr

/-- `overflow` prints nothing and fits on no line. -/
inductive Doc
  | text (s : String)
  | overflow
  | gap (g : Gap)
  | box (style : Style) (offset : Int) (body : List Doc)

abbrev Run := List Doc

def lineWidth : Int := 89

/-- A line has room for so much however far it is indented. -/
def leastRoom : Int := 60

def tooWide : Nat := 0xffff

def text (s : String) : Run := [.text s]

def plainGap : Gap := ⟨0, 0, none, "", none, false, false⟩

def gap (g : Gap) : Run := [.gap g]

def zero : Run := gap plainGap
def blank : Run := gap { plainGap with blanks := 1 }
def newline : Run := gap { plainGap with blanks := tooWide }

/-- Separates what is measured on either side, without a line end. -/
def noBreak : Run := gap { plainGap with fixed := true }

def innerBlank : Run := gap { plainGap with blanks := 1, inner := true }
def innerNewline : Run := gap { plainGap with blanks := tooWide, inner := true }

/-- The end of a list: a comma if the line ends. -/
def lastComma : Run := gap { plainGap with before := some ',' }

def lastCommaOrBlank : Run := gap { plainGap with before := some ',', blanks := 1 }

/-- A box; one that holds a gap alone is left out, and so is an inner gap at the end. -/
def box (style : Style) (offset : Int) (body : Run) : Run :=
  match body with
  | [.gap _] => []
  | _ =>
    match body.getLast? with
    | some (.gap g) => [.box style offset (if g.inner then body.dropLast else body)]
    | _ => [.box style offset body]

def indentStep : Int := 4

def aligned : Int → Run → Run := box .aligned
def filled : Int → Run → Run := box .filled

/-- Moves the line after the gap that stands last back by one step. -/
def outdent : Run → Run
  | [] => []
  | [.gap g] => [.gap { g with offset := g.offset - indentStep }]
  | d :: ds => d :: outdent ds

/-- An indented box whose last gap leads back to where it began. -/
def indented (body : Run) : Run := aligned indentStep (outdent body)

/-- Members with commas between them, and `last` after the last. -/
def commas (last : Run) : List Run → Run
  | [] => []
  | [d] => d ++ last
  | d :: e :: ds => d ++ text "," ++ blank ++ commas last (e :: ds)

def between (separator : Run) : List Run → Run
  | [] => []
  | [d] => d
  | d :: e :: ds => d ++ separator ++ between separator (e :: ds)

/-- A list between delimiters, on one line or with a line for each member. -/
def listed (opening closing : String) (members : List Run) : Run :=
  text opening ++ indented (zero ++ commas lastComma members) ++ text closing

/-- A document with the width that has to fit for its line to go on: of a gap up to the next gap, of a box to
its end and on to the next gap. -/
inductive Sized
  | text (s : String)
  | gap (g : Gap) (size : Nat)
  | box (style : Style) (offset : Int) (size : Nat) (body : List Sized)

/-- Measured documents, the width from their start up to the next gap, and their own width. -/
structure Span where
  docs : List Sized
  lead : Nat
  width : Nat

mutual
def Doc.before (rest : Span) : Doc → Span
  | .text s => ⟨.text s :: rest.docs, s.utf8ByteSize + rest.lead, s.utf8ByteSize + rest.width⟩
  | .overflow => ⟨rest.docs, tooWide + rest.lead, tooWide + rest.width⟩
  | .gap g => ⟨.gap g (g.blanks + rest.lead) :: rest.docs, 0, g.blanks + rest.width⟩
  | .box style offset body =>
    let inner := Doc.span rest.lead body
    ⟨.box style offset (inner.width + rest.lead) inner.docs :: rest.docs,
      inner.width + rest.lead, inner.width + rest.width⟩

/-- Measures documents that `lead` bytes follow up to the next gap. -/
def Doc.span (lead : Nat) : List Doc → Span
  | [] => ⟨[], lead, 0⟩
  | d :: ds => d.before (Doc.span lead ds)
end

def width (r : Run) : Nat := (Doc.span 0 r).width

/-- A box that is broken if its content is wider than `limit`. -/
def narrow (limit : Nat) (offset : Int) (body : Run) : Run :=
  aligned offset (if limit < width body then body ++ [.overflow] else body)

/-- The text so far, what is left of the line, the indentation, and blanks that are owed: they are written
only before a word, so that no line ends in them. -/
structure Page where
  out : String
  room : Int
  indent : Int
  owed : Nat

def Page.settle (p : Page) : Page :=
  { p with out := p.out ++ String.ofList (List.replicate p.owed ' '), owed := 0 }

def Page.put (p : Page) (s : String) : Page :=
  let p := p.settle
  { p with out := p.out ++ s, room := p.room - s.utf8ByteSize }

def Page.goOn (p : Page) (g : Gap) : Page :=
  let p := { p with owed := p.owed + g.blanks, room := p.room - g.blanks }
  match g.flat with
  | some c => { p with out := p.out.push c, room := p.room - 1 }
  | none => p

def Page.endLine (p : Page) (g : Gap) : Page :=
  let p := match g.before with
    | some c => let p := p.settle; { p with out := p.out.push c }
    | none => p
  let indent := p.indent + g.offset
  let p := { p with out := p.out.push '\n', owed := indent.toNat, room := max (lineWidth - indent) leastRoom }
  if g.after.isEmpty then p else p.put g.after

/-- How the gaps of a box are treated. -/
inductive Frame
  | fits
  | broken (style : Style)
  deriving DecidableEq, Repr

def Frame.goesOn (f : Frame) (g : Gap) (size : Nat) (room : Int) : Bool :=
  g.fixed || match f with
    | .fits => true
    | .broken .aligned => false
    | .broken .filled => decide ((size : Int) ≤ room)

mutual
def Sized.print (f : Frame) (p : Page) : Sized → Page
  | .text s => p.put s
  | .gap g size => if f.goesOn g size p.room then p.goOn g else p.endLine g
  | .box style offset size body =>
    if p.room < (size : Int) then
      { Sized.printAll (.broken style) { p with indent := p.indent + offset } body with indent := p.indent }
    else Sized.printAll .fits p body

def Sized.printAll (f : Frame) (p : Page) : List Sized → Page
  | [] => p
  | d :: ds => Sized.printAll f (d.print f p) ds
end

def blankPage : Page := ⟨"", lineWidth, 0, 0⟩

def render (r : Run) : String := (Sized.printAll (.broken .filled) blankPage (Doc.span 0 r).docs).out

end Retype.Format
