import Mathlib.Data.List.Basic

/-!
# Prefixes of texts

`str::starts_with` and `str::strip_prefix` with a text as the pattern, on the
characters of the two texts.
-/

namespace Text

def startsWith (s pre : String) : Bool := pre.toList.isPrefixOf s.toList

def stripPrefix (s pre : String) : Option String :=
  (s.toList.dropPrefix? pre.toList).map String.ofList

theorem stripPrefix_eq_some_iff {s pre t : String} :
    stripPrefix s pre = some t ↔ s = pre ++ t := by
  simp only [stripPrefix, Option.map_eq_some_iff, List.dropPrefix?_eq_some_iff, beq_iff_eq]
  constructor
  · rintro ⟨cs, ⟨_, hs, rfl⟩, rfl⟩
    apply String.toList_injective
    simpa using hs
  · rintro rfl
    exact ⟨t.toList, ⟨pre.toList, by simp, rfl⟩, by simp⟩

theorem startsWith_iff {s pre : String} : startsWith s pre = true ↔ ∃ t, s = pre ++ t := by
  rw [startsWith, List.isPrefixOf_iff_prefix]
  constructor
  · intro h
    obtain ⟨cs, hcs⟩ := h
    exact ⟨String.ofList cs, String.toList_injective (by simp [hcs])⟩
  · intro h
    obtain ⟨t, rfl⟩ := h
    exact ⟨t.toList, by simp⟩

theorem stripPrefix_eq_none_iff {s pre : String} :
    stripPrefix s pre = none ↔ ¬ ∃ t, s = pre ++ t := by
  rw [Option.eq_none_iff_forall_ne_some, not_exists]
  simp only [ne_eq, stripPrefix_eq_some_iff]

end Text
