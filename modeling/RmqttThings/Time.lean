import Mathlib.Data.Int.Basic
import Mathlib.Algebra.Group.Int.Defs
import Mathlib.Algebra.Group.Nat.Defs

namespace RmqttThings

-- `time::OffsetDateTime` as the nanoseconds since the Unix epoch: the code only
-- subtracts, compares, stores and formats instants.
abbrev OffsetDateTime := Int

def nanosPerSecond : Int := 1000000000

-- `Duration::whole_minutes`: the whole seconds, truncated towards zero, divided by
-- sixty, again truncated towards zero.
def wholeMinutes (elapsed : Int) : Int := (elapsed.tdiv nanosPerSecond).tdiv 60

def nanosPerMinute : Int := 60 * nanosPerSecond

-- For a positive bound the truncations are a comparison of nanoseconds.
theorem le_wholeMinutes_iff {bound : Int} (hbound : 0 < bound) (elapsed : Int) :
    bound ≤ wholeMinutes elapsed ↔ bound * nanosPerMinute ≤ elapsed := by
  simp only [wholeMinutes, nanosPerMinute, nanosPerSecond]
  by_cases hneg : elapsed < 0
  · obtain ⟨past, rfl⟩ : ∃ past, elapsed = -past := ⟨-elapsed, by omega⟩
    have hinner := Int.tdiv_eq_ediv_of_nonneg (b := 1000000000) (show 0 ≤ past by omega)
    have houter := Int.tdiv_eq_ediv_of_nonneg (b := 60) (show 0 ≤ past / 1000000000 by omega)
    rw [Int.neg_tdiv, hinner, Int.neg_tdiv, houter]
    omega
  · have hinner := Int.tdiv_eq_ediv_of_nonneg (b := 1000000000) (show 0 ≤ elapsed by omega)
    have houter := Int.tdiv_eq_ediv_of_nonneg (b := 60) (show 0 ≤ elapsed / 1000000000 by omega)
    rw [hinner, houter]
    omega

theorem wholeMinutes_lt_iff {bound : Int} (hbound : 0 < bound) (elapsed : Int) :
    wholeMinutes elapsed < bound ↔ elapsed < bound * nanosPerMinute := by
  have h := le_wholeMinutes_iff hbound elapsed
  omega

theorem wholeMinutes_lt_of_le {bound elapsed shorter : Int} (hbound : 0 < bound)
    (hle : shorter ≤ elapsed)
    (h : wholeMinutes elapsed < bound) : wholeMinutes shorter < bound := by
  rw [wholeMinutes_lt_iff hbound] at h ⊢
  omega

-- Arithmetic on `i64` wraps in a release build.
def wrapI64 (value : Int) : Int := value.bmod (2 ^ 64)

def FitsI64 (value : Int) : Prop := -2 ^ 63 ≤ value ∧ value < 2 ^ 63

theorem wrapI64_eq {value : Int} (h : FitsI64 value) : wrapI64 value = value := by
  simp only [FitsI64] at h
  apply Int.bmod_eq_of_le <;> omega

-- `OffsetDateTime::format` and `OffsetDateTime::parse` with `Iso8601::DEFAULT`,
-- which belong to the `time` crate.
structure Iso8601 where
  format : OffsetDateTime → Except String String
  parse : String → Except String OffsetDateTime

-- Parsing a formatted instant gives it back.
def Iso8601.RoundTrips (iso : Iso8601) (instant : OffsetDateTime) : Prop :=
  ∃ text, iso.format instant = .ok text ∧ iso.parse text = .ok instant

-- Parsing undoes formatting.
def Iso8601.Faithful (iso : Iso8601) : Prop :=
  ∀ instant text, iso.format instant = .ok text → iso.parse text = .ok instant

-- The two functions on a few instants, for concrete runs.
def Iso8601.ofTable (table : List (OffsetDateTime × String)) : Iso8601 where
  format instant :=
    match table.find? (·.1 == instant) with
    | some entry => .ok entry.2
    | none => .error "the formatter cannot format the value"
  parse text :=
    match table.find? (·.2 == text) with
    | some entry => .ok entry.1
    | none => .error "the input could not be parsed"

def firstMinutes : Iso8601 := Iso8601.ofTable
  [(0, "1970-01-01T00:00:00.000000000Z"),
    (59 * nanosPerSecond, "1970-01-01T00:00:59.000000000Z"),
    (nanosPerMinute, "1970-01-01T00:01:00.000000000Z"),
    (2 * nanosPerMinute, "1970-01-01T00:02:00.000000000Z"),
    (3 * nanosPerMinute, "1970-01-01T00:03:00.000000000Z")]

theorem firstMinutes_faithful : firstMinutes.Faithful := by
  intro instant text h
  simp only [firstMinutes, Iso8601.ofTable] at h
  split at h
  · rename_i entry hfind
    have hmem := List.mem_of_find?_eq_some hfind
    have he : entry.1 = instant := by simpa using List.find?_some hfind
    simp only [Except.ok.injEq] at h
    subst h he
    simp only [List.mem_cons, List.not_mem_nil, or_false] at hmem
    rcases hmem with rfl | rfl | rfl | rfl | rfl <;> rfl
  · cases h

end RmqttThings
