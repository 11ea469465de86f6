/-!
# First and repeated occurrences of a key

A list read from left to right splits into the entries whose key is met for the first time and
those whose key was met before. `firsts` and `repeats` are these two parts, in list order.
-/

namespace EventWrap.Occurrence

variable {α κ : Type} [DecidableEq κ]

/-- The entries whose key is neither in `seen` nor carried by an earlier entry. -/
def firsts (key : α → κ) (seen : List κ) : List α → List α
  | [] => []
  | a :: rest =>
    if key a ∈ seen then firsts key seen rest else a :: firsts key (key a :: seen) rest

/-- The entries whose key is in `seen` or carried by an earlier entry. -/
def repeats (key : α → κ) (seen : List κ) : List α → List α
  | [] => []
  | a :: rest =>
    if key a ∈ seen then a :: repeats key seen rest else repeats key (key a :: seen) rest

@[simp] theorem firsts_nil (key : α → κ) (seen : List κ) : firsts key seen [] = [] := rfl

@[simp] theorem repeats_nil (key : α → κ) (seen : List κ) : repeats key seen [] = [] := rfl

theorem length_firsts_add_length_repeats (key : α → κ) (seen : List κ) (entries : List α) :
    (firsts key seen entries).length + (repeats key seen entries).length = entries.length := by
  induction entries generalizing seen with
  | nil => rfl
  | cons a rest ih =>
    have kept := ih (key a :: seen)
    have dropped := ih seen
    by_cases h : key a ∈ seen <;> simp [firsts, repeats, h] <;> omega

end EventWrap.Occurrence
