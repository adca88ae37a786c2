import Mathlib.Data.List.Infix

/-!
Texts one after the other with nothing between them. They can be told apart when none of
them begins another one. Nothing here knows what the texts are about.
-/

namespace Unx511.Text

/-- A text for each `ε`, none of which begins another one. -/
structure PrefixCode (ε β : Type*) where
  text : ε → List β
  nonempty : ∀ e, text e ≠ []
  prefixFree : ∀ {d e}, text d <+: text e → d = e

namespace PrefixCode

variable {ε β : Type*} (code : PrefixCode ε β)

/-- The texts, one after the other. -/
def concat (es : List ε) : List β := es.flatMap code.text

theorem concat_append (front back : List ε) :
    code.concat (front ++ back) = code.concat front ++ code.concat back :=
  List.flatMap_append

theorem concat_concat (es : List ε) (e : ε) :
    code.concat (es ++ [e]) = code.concat es ++ code.text e := by
  rw [concat_append]
  exact congrArg (code.concat es ++ ·) (List.append_nil _)

/-- The first texts of two equal concatenations are the same. -/
theorem head_eq {d e : ε} {front back : List β} (h : code.text d ++ front = code.text e ++ back) :
    d = e := by
  have hd : code.text d <+: code.text e ++ back := ⟨front, h⟩
  have he : code.text e <+: code.text e ++ back := List.prefix_append _ _
  rcases List.prefix_or_prefix_of_prefix hd he with hde | hed
  · exact code.prefixFree hde
  · exact (code.prefixFree hed).symm

theorem concat_injective : Function.Injective code.concat := by
  intro ds es h
  induction ds generalizing es with
  | nil =>
      cases es with
      | nil => rfl
      | cons e es => exact absurd (List.append_eq_nil_iff.mp h.symm).1 (code.nonempty e)
  | cons d ds ih =>
      cases es with
      | nil => exact absurd (List.append_eq_nil_iff.mp h).1 (code.nonempty d)
      | cons e es =>
          change code.text d ++ code.concat ds = code.text e ++ code.concat es at h
          obtain rfl := code.head_eq h
          rw [ih (List.append_cancel_left h)]

end PrefixCode

end Unx511.Text
