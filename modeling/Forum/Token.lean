import Forum.Digest
namespace Forum

-- Hexadecimal digest of a token, the only form that is stored.
structure TokenHash where
  text : String
deriving DecidableEq, Repr

structure Token where
  plain : String
deriving DecidableEq

namespace TokenHash

-- The first eight bytes, enough to tell log lines apart. None when the eighth byte lies inside a
-- character, where the text cannot be cut.
def short? (h : TokenHash) : Option String := Text.Utf8.decode? ((Text.Utf8.encode h.text).take 8)

end TokenHash

namespace Token

def entropyBytes : Nat := 32

abbrev Entropy := Vector UInt8 entropyBytes

def alphabet : List Char := "ABCDEFGHIJKLMNOPQRSTUVWXYZabcdefghijklmnopqrstuvwxyz0123456789-_".toList

def digit (n : Nat) : Char := alphabet.getD (n % 64) 'A'

def digits : List UInt8 → List Char
  | a :: b :: c :: rest =>
    let n := a.toNat * 65536 + b.toNat * 256 + c.toNat
    digit (n / 262144) :: digit (n / 4096) :: digit (n / 64) :: digit n :: digits rest
  | [a, b] =>
    let n := a.toNat * 1024 + b.toNat * 4
    [digit (n / 4096), digit (n / 64), digit n]
  | [a] => [digit (a.toNat / 4), digit (a.toNat * 16)]
  | [] => []

def ofEntropy (entropy : Entropy) : Token := ⟨.ofList (digits entropy.toList)⟩

def hash (t : Token) : TokenHash := ⟨Digest.hex (Digest.sha256 (Text.Utf8.encode t.plain))⟩

def isEmpty (t : Token) : Bool := t.plain.isEmpty

def masked : String := "SessionToken(..)"

theorem digit_mem (n : Nat) : digit n ∈ alphabet := by
  have : n % 64 < alphabet.length := Nat.mod_lt _ (by decide)
  simp only [digit, List.getD_eq_getElem?_getD, List.getElem?_eq_getElem this, Option.getD_some]
  exact List.getElem_mem _

theorem mem_alphabet_of_mem_digits {c : Char} {bytes : List UInt8} (mem : c ∈ digits bytes) : c ∈ alphabet := by
  induction bytes using digits.induct with
  | case1 a b d rest ih =>
    simp only [digits, List.mem_cons] at mem
    rcases mem with h | h | h | h | h
    · exact h ▸ digit_mem _
    · exact h ▸ digit_mem _
    · exact h ▸ digit_mem _
    · exact h ▸ digit_mem _
    · exact ih h
  | case2 a b =>
    simp only [digits, List.mem_cons, List.not_mem_nil, or_false] at mem
    rcases mem with h | h | h <;> exact h ▸ digit_mem _
  | case3 a =>
    simp only [digits, List.mem_cons, List.not_mem_nil, or_false] at mem
    rcases mem with h | h <;> exact h ▸ digit_mem _
  | case4 => simp [digits] at mem

theorem digits_ne_nil {bytes : List UInt8} (some : bytes ≠ []) : digits bytes ≠ [] := by
  cases bytes using digits.induct with
  | case1 => simp [digits]
  | case2 => simp [digits]
  | case3 => simp [digits]
  | case4 => exact absurd rfl some

theorem isEmpty_ofEntropy (entropy : Entropy) : (ofEntropy entropy).isEmpty = false := by
  have drawn : entropy.toList ≠ [] := by
    intro none
    have length := entropy.length_toList
    rw [none] at length
    cases length
  simpa [isEmpty, ofEntropy] using digits_ne_nil drawn

end Token
end Forum
