namespace Forum.Text

def splitAll [DecidableEq α] (separator : α) (xs : List α) : List (List α) :=
  xs.foldr (fun x parts => if x = separator then [] :: parts else (x :: parts.headD []) :: parts.tail) [[]]

def splitLast? [DecidableEq α] (separator : α) (xs : List α) : Option (List α × List α) :=
  match xs.reverse.dropWhile (· ≠ separator) with
  | [] => none
  | _ :: before => some (before.reverse, (xs.reverse.takeWhile (· ≠ separator)).reverse)

theorem splitAll_cons [DecidableEq α] (separator x : α) (xs : List α) :
    splitAll separator (x :: xs) =
      if x = separator then [] :: splitAll separator xs
      else (x :: (splitAll separator xs).headD []) :: (splitAll separator xs).tail := rfl

theorem splitAll_of_notMem [DecidableEq α] {separator : α} {xs : List α} (none : separator ∉ xs) :
    splitAll separator xs = [xs] := by
  induction xs with
  | nil => rfl
  | cons x xs ih =>
    simp only [List.mem_cons, not_or] at none
    rw [splitAll_cons, if_neg (Ne.symm none.1), ih none.2]
    rfl

-- What stands before the first separator is the first part.
theorem splitAll_append [DecidableEq α] {separator : α} {first : List α} (none : separator ∉ first) (rest : List α) :
    splitAll separator (first ++ separator :: rest) = first :: splitAll separator rest := by
  induction first with
  | nil => simp [splitAll_cons]
  | cons x first ih =>
    simp only [List.mem_cons, not_or] at none
    rw [List.cons_append, splitAll_cons, if_neg (Ne.symm none.1), ih none.2]
    rfl

end Forum.Text
