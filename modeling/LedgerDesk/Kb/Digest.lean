import Mathlib

/-!
# The digest of a query

The terms of a query and the label of its corpus are hashed as one text, the label right behind the
terms.
-/
namespace LedgerDesk.Kb

/-- The query text a ticket asks with. -/
def queryTermsFor (subject body : String) : String := subject ++ "\n" ++ body

def inSnapshotLabel (c : Char) : Bool :=
  c.isAlphanum || c = ':' || c = '.' || c = '_' || c = '-'

/-- `SNAPSHOT_PATTERN`. -/
def isSnapshotLabel (label : String) : Bool :=
  0 < label.toList.length && label.toList.length ≤ 64 && label.toList.all inSnapshotLabel

def queryDigest (sha256Hex : String → String) (terms snapshot : String) : String :=
  sha256Hex (terms ++ snapshot)

/-- One query is the other with the beginning of its label at the end of its terms. -/
def Shifted (terms snapshot terms' snapshot' : String) : Prop :=
  ∃ moved, moved ≠ "" ∧ terms' = terms ++ moved ∧ snapshot = moved ++ snapshot'

section Digest

variable {sha256Hex : String → String} {terms snapshot terms' snapshot' : String}

/-- Two queries are hashed from one text if they are one query, or one is the other shifted. -/
theorem append_eq_iff_shifted :
    terms ++ snapshot = terms' ++ snapshot' ↔
      (terms = terms' ∧ snapshot = snapshot') ∨ Shifted terms snapshot terms' snapshot' ∨
        Shifted terms' snapshot' terms snapshot := by
  constructor
  · intro same
    have texts := congrArg String.toList same
    simp only [String.toList_append] at texts
    rcases List.append_eq_append_iff.mp texts with ⟨moved, longer, rest⟩ | ⟨moved, longer, rest⟩
    · by_cases none : moved = []
      · subst none
        rw [List.append_nil] at longer
        exact .inl ⟨String.toList_inj.mp longer.symm, String.toList_inj.mp rest⟩
      · refine .inr (.inl ⟨String.ofList moved, by simpa using none, ?_, ?_⟩) <;>
          rw [← String.toList_inj, String.toList_append, String.toList_ofList]
        · exact longer
        · exact rest
    · by_cases none : moved = []
      · subst none
        rw [List.append_nil] at longer
        exact .inl ⟨String.toList_inj.mp longer, String.toList_inj.mp rest.symm⟩
      · refine .inr (.inr ⟨String.ofList moved, by simpa using none, ?_, ?_⟩) <;>
          rw [← String.toList_inj, String.toList_append, String.toList_ofList]
        · exact longer
        · exact rest
  · rintro (⟨rfl, rfl⟩ | ⟨moved, -, rfl, rfl⟩ | ⟨moved, -, rfl, rfl⟩)
    · rfl
    · rw [String.append_assoc]
    · rw [String.append_assoc]

theorem Shifted.apart (shifted : Shifted terms snapshot terms' snapshot') : terms ≠ terms' := by
  obtain ⟨moved, some, rfl, -⟩ := shifted
  intro same
  have lengths := congrArg String.length same
  rw [String.length_append] at lengths
  exact some (String.length_eq_zero_iff.mp (by omega))

end Digest

end LedgerDesk.Kb
