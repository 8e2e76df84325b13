import Retype.Proofs.AlikeTokens
import Retype.Proofs.CompactText

/-! Types that are carried as text.  The compact text of a type holds its tokens, and is read as the type where the
signs that touch in it make no operator that the type was not read from. -/

namespace Retype.Naming
open Code Code.Grammar

/-- The compact text of a type holds the tokens of the type, each as it is.  So the type is read back wherever the
signs that touch in the text make the operators of the source and no other.  Plain tokens hold no comma, and no space
that stands beside a sign. -/
theorem parseType_renderType {source : String} {t : Tree} (parsed : parseType source = some t)
    (plain : Trees.arePlain t.written = true) : lex (renderType t) = some (Trees.touched t.written) ∧
      ∃ ts, lex source = some ts ∧
        (alike ts (Trees.touched t.written) = true → parseType (renderType t) = some t) := by
  have written := lex_renderType plain
  obtain ⟨ts, lexed, read⟩ := Option.bind_eq_some_iff.mp parsed
  refine ⟨written, ts, lexed, fun same => ?_⟩
  rw [parseType, parseText, written]
  exact parseAll_type_of_alike same read

/-- A function with a lifetime, a qualified path, an array, constants, a sum of traits and a pointer. -/
def signatureType : String :=
  "&'a mut for<'b> fn(name: &'b [<T as Iterator>::Item; 4], u8) -> Box<dyn Fn(Map<-3, \x7b N + 1 \x7d>) -> *const ! + Send>"

/-- It is read back from its text. -/
theorem parseType_renderType_signature : ∃ t, parseType signatureType = some t ∧
    parseType (renderType t) = some t := by
  have found : ((parseType signatureType).any fun t => Trees.arePlain t.written &&
      (lex signatureType).all fun ts => alike ts (Trees.touched t.written)) = true := by decide +kernel
  obtain ⟨t, parsed, found⟩ := (Option.any_eq_true _ _).mp found
  obtain ⟨plain, same⟩ := Bool.and_eq_true_iff.mp found
  obtain ⟨-, ts, lexed, readBack⟩ := parseType_renderType parsed plain
  rw [lexed, Option.all_some] at same
  exact ⟨t, parsed, readBack same⟩

/-- A path from the root runs into the colon after the name of an argument, and the text is no type. -/
example : ((parseType "fn(a: ::T)").any fun t => renderType t == "fn(a:::T)" &&
    (parseType (renderType t)).isNone) = true := by
  decide +kernel

end Retype.Naming
