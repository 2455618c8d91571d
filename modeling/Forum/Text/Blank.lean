namespace Forum.Text

def isBlank (c : Char) : Bool :=
  let n := c.toNat
  (9 ≤ n && n ≤ 13) || n == 0x20 || n == 0x85 || n == 0xA0 || n == 0x1680 || (0x2000 ≤ n && n ≤ 0x200A) ||
    n == 0x2028 || n == 0x2029 || n == 0x202F || n == 0x205F || n == 0x3000

def trimLeft (cs : List Char) : List Char := cs.dropWhile isBlank

def trimChars (cs : List Char) : List Char := (trimLeft (trimLeft cs).reverse).reverse

def trim (s : String) : String := .ofList (trimChars s.toList)

section
variable {lead trail cs : List Char}

theorem trimLeft_padded (blank : ∀ c ∈ lead, isBlank c = true) (first : ∀ c ∈ cs.head?, isBlank c = false) :
    trimLeft (lead ++ cs) = cs := by
  rw [trimLeft, List.dropWhile_append_of_pos blank]
  cases cs with
  | nil => rfl
  | cons c rest => exact List.dropWhile_cons_of_neg (by simp [first c rfl])

-- White space around a text that has none of its own is dropped, and nothing else.
theorem trimChars_padded (before : ∀ c ∈ lead, isBlank c = true) (after : ∀ c ∈ trail, isBlank c = true) (filled : cs ≠ [])
    (bare : ∀ c ∈ cs, isBlank c = false) : trimChars (lead ++ cs ++ trail) = cs := by
  have left : trimLeft (lead ++ (cs ++ trail)) = cs ++ trail := by
    apply trimLeft_padded before
    intro c first
    cases cs with
    | nil => exact absurd rfl filled
    | cons d rest =>
      cases first
      exact bare c List.mem_cons_self
  have right : trimLeft (trail.reverse ++ cs.reverse) = cs.reverse := by
    apply trimLeft_padded
    · intro c member
      exact after c (List.mem_reverse.mp member)
    · intro c last
      exact bare c (List.mem_reverse.mp (List.mem_of_mem_head? last))
  rw [trimChars, List.append_assoc, left, List.reverse_append, right, List.reverse_reverse]

end

end Forum.Text
