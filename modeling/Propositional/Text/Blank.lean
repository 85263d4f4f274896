import Propositional.Text.Ranges

/-!
# White space

The characters that a formula may contain anywhere without a change of meaning, and that end a
list of formulas when a line holds nothing else. They are the characters with the property
White_Space of the Unicode character database, which `Char.isWhitespace` covers in part only.
-/

namespace Propositional.Text

/-- The code points with the property White_Space. -/
def blankRanges : Ranges :=
  [(0x0009, 0x000D), (0x0020, 0x0020), (0x0085, 0x0085), (0x00A0, 0x00A0), (0x1680, 0x1680),
   (0x2000, 0x200A), (0x2028, 0x2029), (0x202F, 0x202F), (0x205F, 0x205F), (0x3000, 0x3000)]

/-- Whether a character is white space. -/
def isBlank (c : Char) : Bool :=
  blankRanges.contains c

/-- Whether a text holds nothing but white space; the empty text does. -/
def allBlank (text : String) : Bool :=
  text.toList.all isBlank

/-- The characters from the exclamation mark to the tilde are not white space. -/
theorem isBlank_of_graphic {c : Char} (h : 0x21 ≤ c.toNat) (h' : c.toNat ≤ 0x7E) :
    isBlank c = false := by
  rw [isBlank, Bool.eq_false_iff, Ne, Ranges.contains_iff]
  rintro ⟨r, hr, hlo, hhi⟩
  simp only [blankRanges, List.mem_cons, List.not_mem_nil, or_false] at hr
  rcases hr with rfl | rfl | rfl | rfl | rfl | rfl | rfl | rfl | rfl | rfl <;> simp_all <;> omega

example : isBlank '\u00a0' = true ∧ ('\u00a0').isWhitespace = false := by decide

example : isBlank '\u200b' = false := by decide

end Propositional.Text
