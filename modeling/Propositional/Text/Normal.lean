import Propositional.Text.Blank

/-!
# Normal form of a text

Formulas are read from the normal form of their text: white space is dropped and the letters `a`
to `z` are raised to `A` to `Z`. Every other character stays as it is, so positions in the normal
form are positions among the characters that count.
-/

namespace Propositional.Text

/-- The characters of a text that are not white space, letters raised to upper case. Case is a
matter of the 26 letters only, so `é` and `ı` are left alone. -/
def normalize (text : String) : List Char :=
  (text.toList.filter fun c => !isBlank c).map Char.toUpper

/-- A character that the normal form leaves as it is. -/
def IsNormal (c : Char) : Prop :=
  isBlank c = false ∧ c.toUpper = c

instance (c : Char) : Decidable (IsNormal c) :=
  inferInstanceAs (Decidable (isBlank c = false ∧ c.toUpper = c))

/-- Raising takes 32 off the code points of `a` to `z` and leaves all others alone. -/
theorem toNat_toUpper (c : Char) :
    c.toUpper.toNat = if 97 ≤ c.toNat ∧ c.toNat ≤ 122 then c.toNat - 32 else c.toNat := by
  have lower : ('a'.val ≤ c.val ∧ c.val ≤ 'z'.val) ↔ (97 ≤ c.toNat ∧ c.toNat ≤ 122) := Iff.rfl
  have shift : ('A'.val - 'a'.val).toNat = 4294967264 := rfl
  delta Char.toUpper
  split
  · next h =>
    rw [lower] at h
    rw [if_pos h]
    -- Adding the difference of the cases wraps around.
    have wrap : (c.val + ('A'.val - 'a'.val)).toNat = c.toNat - 32 := by
      rw [UInt32.toNat_add, shift]
      simp only [Char.toNat] at h ⊢
      omega
    exact wrap
  · next h =>
    rw [lower] at h
    rw [if_neg h]

/-- Raising twice is raising once. -/
theorem toUpper_toUpper (c : Char) : c.toUpper.toUpper = c.toUpper := by
  rw [← Char.toNat_inj, toNat_toUpper, toNat_toUpper]
  split
  · rw [if_neg (by omega)]
  · rfl

/-- Raising a character makes no white space and removes none. -/
theorem isBlank_toUpper (c : Char) : isBlank c.toUpper = isBlank c := by
  have upper := toNat_toUpper c
  split at upper
  · next h =>
    rw [isBlank_of_graphic (by omega) (by omega), isBlank_of_graphic (by omega) (by omega)]
  · rw [Char.toNat_inj.mp upper]

/-- The normal form holds no letter in lower case. -/
theorem toUpper_of_mem_normalize {text : String} {c : Char} (h : c ∈ normalize text) :
    c.toUpper = c := by
  obtain ⟨d, _, rfl⟩ := List.mem_map.mp h
  exact toUpper_toUpper d

@[simp] theorem normalize_append (a b : String) :
    normalize (a ++ b) = normalize a ++ normalize b := by
  simp [normalize]

/-- The normal form holds neither white space nor letters in lower case. -/
theorem isNormal_of_mem_normalize {text : String} {c : Char} (h : c ∈ normalize text) :
    IsNormal c := by
  refine ⟨?_, toUpper_of_mem_normalize h⟩
  obtain ⟨d, hd, rfl⟩ := List.mem_map.mp h
  rw [isBlank_toUpper]
  simpa using (List.mem_filter.mp hd).2

/-- A text of normal characters is its own normal form. -/
theorem normalize_ofList {cs : List Char} (h : ∀ c ∈ cs, IsNormal c) :
    normalize (String.ofList cs) = cs := by
  have keep : cs.filter (fun c => !isBlank c) = cs :=
    List.filter_eq_self.mpr fun c hc => by simp [(h c hc).1]
  rw [normalize, String.toList_ofList, keep]
  exact (List.map_congr_left fun c hc => (h c hc).2).trans (List.map_id cs)

/-- The normal form is empty exactly when the text is blank. -/
theorem normalize_eq_nil_iff {text : String} : normalize text = [] ↔ allBlank text = true := by
  simp [normalize, allBlank, List.filter_eq_nil_iff]

end Propositional.Text
