namespace Forum

-- A length of time in nanoseconds. Negative spans point backwards.
structure Span where
  nanos : Int
deriving DecidableEq, Repr, Inhabited

namespace Span

def ofMillis (count : Int) : Span := ⟨count * 1000000⟩
def ofSeconds (count : Int) : Span := ⟨count * 1000000000⟩

instance : Add Span := ⟨fun a b => ⟨a.nanos + b.nanos⟩⟩
instance : Zero Span := ⟨⟨0⟩⟩

def seconds (d : Span) : Int := d.nanos / 1000000000

def subsecond (d : Span) : Int := d.nanos % 1000000000

end Span

namespace Instant

-- Milliseconds of the first instant of the calendar, the start of year -262143.
def earliestMillis : Int := -8334601228800000

-- Milliseconds of the last instant of the calendar, the end of year 262142.
def latestMillis : Int := 8210266876799999

def earliestNanos : Int := earliestMillis * 1000000
def latestNanos : Int := latestMillis * 1000000 + 999999

def InRange (nanos : Int) : Prop := earliestNanos ≤ nanos ∧ nanos ≤ latestNanos

instance (nanos : Int) : Decidable (InRange nanos) :=
  inferInstanceAs (Decidable (_ ∧ _))

end Instant

structure Instant where
  nanos : Int
  inRange : Instant.InRange nanos
deriving DecidableEq

namespace Instant

theorem ext_nanos {a b : Instant} (same : a.nanos = b.nanos) : a = b := by
  cases a; cases b; cases same; rfl

instance : LE Instant := ⟨fun a b => a.nanos ≤ b.nanos⟩
instance : LT Instant := ⟨fun a b => a.nanos < b.nanos⟩
instance (a b : Instant) : Decidable (a ≤ b) := inferInstanceAs (Decidable (a.nanos ≤ b.nanos))
instance (a b : Instant) : Decidable (a < b) := inferInstanceAs (Decidable (a.nanos < b.nanos))

def ofNanos? (nanos : Int) : Option Instant :=
  if inside : InRange nanos then some ⟨nanos, inside⟩ else none

def ofMillis? (millis : Int) : Option Instant := ofNanos? (millis * 1000000)

def epoch : Instant := ⟨0, by decide⟩

instance : Inhabited Instant := ⟨epoch⟩

-- Whole milliseconds since 1970, rounded down, also before 1970.
def millis (t : Instant) : Int := t.nanos / 1000000

def seconds (t : Instant) : Int := t.nanos / 1000000000

def subsecond (t : Instant) : Nat := (t.nanos % 1000000000).toNat

def add? (t : Instant) (d : Span) : Option Instant := ofNanos? (t.nanos + d.nanos)

theorem ofNanos?_eq_some_iff {nanos : Int} {t : Instant} : ofNanos? nanos = some t ↔ t.nanos = nanos := by
  unfold ofNanos?
  split
  · constructor
    · intro same; cases Option.some.inj same; rfl
    · intro same; exact congrArg some (ext_nanos same.symm)
  · rename_i outside
    constructor
    · intro none; cases none
    · intro same; exact absurd (same ▸ t.inRange) outside

theorem add?_nanos {t u : Instant} {d : Span} (sum : t.add? d = some u) : u.nanos = t.nanos + d.nanos :=
  ofNanos?_eq_some_iff.mp sum

theorem le_refl (t : Instant) : t ≤ t := Int.le_refl t.nanos

theorem le_trans {t u v : Instant} (first : t ≤ u) (second : u ≤ v) : t ≤ v :=
  have sum : t.nanos ≤ v.nanos := Int.le_trans first second
  sum

theorem millis_mono {t u : Instant} (earlier : t ≤ u) : t.millis ≤ u.millis := Int.ediv_le_ediv (by decide) earlier

-- The greatest whole millisecond that is not after an instant. What the store keeps is read back as this.
def floor (t : Instant) : Instant where
  nanos := t.millis * 1000000
  inRange := by
    have range := t.inRange
    simp only [InRange, earliestNanos, latestNanos, earliestMillis, latestMillis, millis] at range ⊢
    omega

theorem ofMillis?_millis (t : Instant) : ofMillis? t.millis = some t.floor := ofNanos?_eq_some_iff.mpr rfl

theorem floor_le (t : Instant) : t.floor ≤ t := Int.ediv_mul_le t.nanos (by decide)

theorem floor_eq_iff {t : Instant} : t.floor = t ↔ t.nanos % 1000000 = 0 := by
  have parts := Int.mul_ediv_add_emod t.nanos 1000000
  constructor
  · intro same
    have nanos : t.nanos / 1000000 * 1000000 = t.nanos := congrArg Instant.nanos same
    omega
  · intro whole
    refine ext_nanos ?_
    change t.nanos / 1000000 * 1000000 = t.nanos
    omega

theorem floor_mono {t u : Instant} (earlier : t ≤ u) : t.floor ≤ u.floor :=
  Int.mul_le_mul_of_nonneg_right (millis_mono earlier) (by decide)

theorem floor_le_iff {t u : Instant} : t.floor ≤ u ↔ t.millis ≤ u.millis := by
  change t.millis * 1000000 ≤ u.nanos ↔ t.millis ≤ u.nanos / 1000000
  omega

theorem lt_floor_iff {t u : Instant} : u < t.floor ↔ u.millis < t.millis := by
  change u.nanos < t.millis * 1000000 ↔ u.nanos / 1000000 < t.millis
  omega

-- A sum is rounded as its first part is, if whole milliseconds are added.
theorem add?_millis {t u : Instant} {count : Int} (sum : t.add? (.ofMillis count) = some u) :
    u.millis = t.millis + count := by
  have nanos := add?_nanos sum
  simp only [Span.ofMillis] at nanos
  simp only [millis, nanos]
  omega

theorem add?_mono {t u t' u' : Instant} {d : Span} (sum : t.add? d = some u) (sum' : t'.add? d = some u') (later : t ≤ t') :
    u ≤ u' := by
  have nanos := add?_nanos sum
  have nanos' := add?_nanos sum'
  have later : t.nanos ≤ t'.nanos := later
  change u.nanos ≤ u'.nanos
  omega

end Instant
end Forum
