/-!
# Searching sequences

The first occurrence of one sequence in another, for characters and for bytes.
-/

namespace Templating.Text

variable {α : Type} [BEq α]

/-- What stands before the first occurrence of `needle`, and what begins with it. -/
def splitAtFirst? (needle : List α) : List α → Option (List α × List α)
  | [] => if needle.isEmpty then some ([], []) else none
  | x :: rest =>
    if needle.isPrefixOf (x :: rest) then some ([], x :: rest)
    else (splitAtFirst? needle rest).map fun found => (x :: found.1, found.2)

def occursIn (needle text : List α) : Bool := (splitAtFirst? needle text).isSome

theorem append_of_splitAtFirst? {needle text before after : List α}
    (h : splitAtFirst? needle text = some (before, after)) : before ++ after = text := by
  induction text generalizing before after with
  | nil =>
    simp only [splitAtFirst?] at h
    split at h <;> simp_all
  | cons x rest ih =>
    simp only [splitAtFirst?] at h
    split at h
    · simp_all
    · obtain ⟨found, hfound, hpair⟩ := Option.map_eq_some_iff.1 h
      cases hpair
      simpa using ih hfound

end Templating.Text
