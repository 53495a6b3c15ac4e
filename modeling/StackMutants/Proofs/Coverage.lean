import StackMutants.Program
import StackMutants.Proofs.ByteOrder
import StackMutants.Proofs.Sequence
import Mathlib.Data.List.Forall2

/-!
# Proofs.Coverage — the covering tests of a line

The tests of a line are those that its entries list (`LineCoverage.mem_listedTests`), each once, and `Precedes` says
in which order: by time, then by the bytes of the names, and where both agree, by where the entries first list
them.  Two tests never precede each other, so this leaves one list only (`Program.listsInOrder_iff`).  In which
order the coverage has the entries, and the entries their tests, can only matter between tests of equal time
and name (`Program.coveringTests_perm`, `Program.map_cost_eq`).
-/

namespace StackMutants

namespace CoveringTest

/-- What a test costs to run, with its name for tests of the same time. -/
def cost (t : CoveringTest) : UInt64 × String := (t.timeMs, t.name)

/-- The order in which tests that are listed somewhere are to be run. -/
def Precedes (listed : List CoveringTest) (a b : CoveringTest) : Prop :=
  a.timeMs < b.timeMs ∨ a.timeMs = b.timeMs ∧
    (Text.bytes a.name < Text.bytes b.name ∨
      a.name = b.name ∧ listed.idxOf a < listed.idxOf b)

variable {listed : List CoveringTest} {a b c : CoveringTest}

theorem Precedes.trans (hab : Precedes listed a b) (hbc : Precedes listed b c) : Precedes listed a c := by
  rcases hab with htime | ⟨htime, hname | ⟨hname, hindex⟩⟩
  · rcases hbc with htime' | ⟨htime', -⟩
    · exact .inl (UInt64.lt_trans htime htime')
    · exact .inl (htime' ▸ htime)
  · rcases hbc with htime' | ⟨htime', hname' | ⟨hname', -⟩⟩
    · exact .inl (htime ▸ htime')
    · exact .inr ⟨htime.trans htime', .inl (List.lt_trans hname hname')⟩
    · exact .inr ⟨htime.trans htime', .inl (hname' ▸ hname)⟩
  · rcases hbc with htime' | ⟨htime', hname' | ⟨hname', hindex'⟩⟩
    · exact .inl (htime ▸ htime')
    · exact .inr ⟨htime.trans htime', .inl (hname ▸ hname')⟩
    · exact .inr ⟨htime.trans htime', .inr ⟨hname.trans hname', Nat.lt_trans hindex hindex'⟩⟩

/-- The order of costs. -/
def CostLE (x y : UInt64 × String) : Prop := x.1 < y.1 ∨ x.1 = y.1 ∧ x.2 ≤ y.2

theorem CostLE.antisymm {x y : UInt64 × String} (hxy : CostLE x y) (hyx : CostLE y x) : x = y := by
  rcases hxy with htime | ⟨htime, hname⟩
  · rcases hyx with htime' | ⟨htime', -⟩
    · exact absurd htime' (UInt64.lt_asymm htime)
    · exact absurd (htime' ▸ htime) (UInt64.lt_irrefl _)
  · rcases hyx with htime' | ⟨-, hname'⟩
    · exact absurd (htime ▸ htime') (UInt64.lt_irrefl _)
    · exact Prod.ext htime (String.le_antisymm hname hname')

theorem Precedes.costLE (h : Precedes listed a b) : CostLE a.cost b.cost := by
  refine h.imp_right fun ⟨htime, hname⟩ => ⟨htime, ?_⟩
  rcases hname with hname | ⟨hname, -⟩
  · exact String.not_lt.mp (String.lt_asymm (Text.bytes_lt_iff.mp hname))
  · show a.name ≤ b.name
    exact hname ▸ String.le_refl a.name

theorem not_precedes_self (t : CoveringTest) : ¬ Precedes listed t t := by
  rintro (htime | ⟨-, hname | ⟨-, hindex⟩⟩)
  · exact UInt64.lt_irrefl _ htime
  · exact List.lt_irrefl _ hname
  · exact Nat.lt_irrefl _ hindex

theorem Precedes.asymm (h : Precedes listed a b) : ¬ Precedes listed b a :=
  fun h' => not_precedes_self a (h.trans h')

theorem precedes_of_runsBefore (h : Program.runsBefore a b = true) : Precedes listed a b := by
  unfold Program.runsBefore at h
  rw [Bool.or_eq_true, Bool.and_eq_true, decide_eq_true_eq, beq_iff_eq, decide_eq_true_eq,
    ← Text.bytes_lt_iff] at h
  exact h.imp_right fun ⟨htime, hname⟩ => ⟨htime, .inl hname⟩

theorem precedes_of_not_runsBefore (h : Program.runsBefore b a = false)
    (hlisted : listed.idxOf a < listed.idxOf b) : Precedes listed a b := by
  unfold Program.runsBefore at h
  rw [Bool.or_eq_false_iff, Bool.and_eq_false_iff, decide_eq_false_iff_not, beq_eq_false_iff_ne,
    decide_eq_false_iff_not] at h
  obtain ⟨htime, hname⟩ := h
  rcases Std.lt_trichotomy a.timeMs b.timeMs with hlt | heq | hgt
  · exact .inl hlt
  · refine .inr ⟨heq, ?_⟩
    have hname := hname.resolve_left fun hne => hne heq.symm
    rcases Std.lt_trichotomy a.name b.name with hlt | hsame | hgt
    · exact .inl (Text.bytes_lt_iff.mpr hlt)
    · exact .inr ⟨hsame, hlisted⟩
    · exact absurd hgt hname
  · exact absurd hgt htime

end CoveringTest

namespace LineCoverage

variable {coverage coverage' : List LineCoverage} {owner : ClassName} {line : UInt32}

/-- The tests that the entries of a line list, as often as they do. -/
def listedTests (coverage : List LineCoverage) (owner : ClassName) (line : UInt32) : List CoveringTest :=
  (coverage.filter fun c => c.owner == owner && c.line == line).flatMap (·.tests)

theorem mem_listedTests {t : CoveringTest} :
    t ∈ listedTests coverage owner line ↔
      ∃ c ∈ coverage, c.owner = owner ∧ c.line = line ∧ t ∈ c.tests := by
  unfold listedTests
  simp only [List.mem_flatMap, List.mem_filter, Bool.and_eq_true, beq_iff_eq, and_assoc]

/-- Entries for the same line with the same tests, in whatever order. -/
structure SameTests (c c' : LineCoverage) : Prop where
  owner_eq : c.owner = c'.owner
  line_eq : c.line = c'.line
  tests_perm : c.tests.Perm c'.tests

/-- The same entries in some order, each with the same tests in some order. -/
def Rearranges (coverage coverage' : List LineCoverage) : Prop :=
  ∃ entries, coverage.Perm entries ∧ List.Forall₂ SameTests entries coverage'

theorem listedTests_perm_of_sameTests (h : List.Forall₂ SameTests coverage coverage') :
    (listedTests coverage owner line).Perm (listedTests coverage' owner line) := by
  unfold listedTests
  induction h with
  | nil => exact .refl _
  | cons hentry _ ih =>
    rw [List.filter_cons, List.filter_cons, hentry.owner_eq, hentry.line_eq]
    split
    · exact hentry.tests_perm.append ih
    · exact ih

theorem Rearranges.listedTests_perm (h : Rearranges coverage coverage') :
    (listedTests coverage owner line).Perm (listedTests coverage' owner line) := by
  obtain ⟨entries, hperm, hentries⟩ := h
  have hmoved : (listedTests coverage owner line).Perm (listedTests entries owner line) :=
    (hperm.filter _).flatMap_right _
  exact hmoved.trans (listedTests_perm_of_sameTests hentries)

end LineCoverage

namespace Program

open LineCoverage

variable {p p' : Program} {owner : ClassName} {line : UInt32}

/-! ## The tests of a line -/

/-- The tests of a line in the order in which they are to be run: those that its entries list, each once. -/
structure ListsInOrder (p : Program) (owner : ClassName) (line : UInt32) (tests : List CoveringTest) :
    Prop where
  nodup : tests.Nodup
  mem_iff : ∀ t, t ∈ tests ↔ ∃ c ∈ p.coverage, c.owner = owner ∧ c.line = line ∧ t ∈ c.tests
  order : tests.Pairwise (CoveringTest.Precedes (listedTests p.coverage owner line))

theorem coveringTests_perm_distinct :
    (p.coveringTests owner line).Perm (Sequence.distinct (listedTests p.coverage owner line)) :=
  Sequence.sortStable_perm _

theorem listsInOrder_coveringTests : p.ListsInOrder owner line (p.coveringTests owner line) := by
  have htrans : ∀ a b c, CoveringTest.Precedes (listedTests p.coverage owner line) a b →
      CoveringTest.Precedes (listedTests p.coverage owner line) b c →
      CoveringTest.Precedes (listedTests p.coverage owner line) a c := fun _ _ _ => .trans
  refine ⟨coveringTests_perm_distinct.nodup_iff.mpr (Sequence.nodup_distinct _), fun t => ?_, ?_⟩
  · exact coveringTests_perm_distinct.mem_iff.trans (Sequence.mem_distinct.trans mem_listedTests)
  · refine Sequence.pairwise_sortStable htrans ?_
    refine (Sequence.pairwise_idxOf_distinct _).imp fun hlisted => ⟨?_, fun h => ?_⟩
    · exact CoveringTest.precedes_of_runsBefore
    · exact CoveringTest.precedes_of_not_runsBefore h hlisted

/-- The order leaves no choice. -/
theorem listsInOrder_iff {tests : List CoveringTest} :
    p.ListsInOrder owner line tests ↔ tests = p.coveringTests owner line := by
  constructor
  · intro h
    have hcovering : p.ListsInOrder owner line (p.coveringTests owner line) := listsInOrder_coveringTests
    exact Sequence.eq_of_pairwise (fun _ _ => CoveringTest.Precedes.asymm) h.order hcovering.order fun t =>
      (h.mem_iff t).trans (hcovering.mem_iff t).symm
  · rintro rfl
    exact listsInOrder_coveringTests

/-! ## Coverage in another order -/

theorem coveringTests_perm (h : Rearranges p.coverage p'.coverage) :
    (p'.coveringTests owner line).Perm (p.coveringTests owner line) := by
  have hdistinct : (Sequence.distinct (listedTests p'.coverage owner line)).Perm
      (Sequence.distinct (listedTests p.coverage owner line)) :=
    Sequence.distinct_perm_distinct fun _ => h.listedTests_perm.mem_iff.symm
  exact coveringTests_perm_distinct.trans (hdistinct.trans coveringTests_perm_distinct.symm)

theorem map_cost_eq (h : Rearranges p.coverage p'.coverage) :
    (p'.coveringTests owner line).map (·.cost) = (p.coveringTests owner line).map (·.cost) := by
  have hsorted : ∀ p : Program, ((p.coveringTests owner line).map (·.cost)).Pairwise CoveringTest.CostLE :=
    fun p => List.pairwise_map.mpr
      (listsInOrder_coveringTests.order.imp fun hprecedes => hprecedes.costLE)
  exact ((coveringTests_perm h).map _).eq_of_pairwise
    (fun _ _ _ _ => CoveringTest.CostLE.antisymm) (hsorted p') (hsorted p)

/-- **The covering tests of a line** are the tests that its entries list, each once, by time and by the bytes of
their names, and else as they are first listed; no other list is so ordered.  If the entries and their tests
are rearranged, the tests are the same, and so is the sequence of their times and names. -/
theorem coveringTests_arranged (p : Program) (owner : ClassName) (line : UInt32) :
    p.ListsInOrder owner line (p.coveringTests owner line) ∧
    (∀ tests, p.ListsInOrder owner line tests → tests = p.coveringTests owner line) ∧
    ∀ p' : Program, Rearranges p.coverage p'.coverage →
      (p'.coveringTests owner line).Perm (p.coveringTests owner line) ∧
      (p'.coveringTests owner line).map (fun t => (t.timeMs, t.name)) =
        (p.coveringTests owner line).map fun t => (t.timeMs, t.name) :=
  ⟨listsInOrder_coveringTests, fun _ => listsInOrder_iff.mp,
    fun _ h => ⟨coveringTests_perm h, map_cost_eq h⟩⟩

/-- Two entries for a line, and one for another line, with tests of equal time and name. -/
def sharedLine : Program where
  coverage :=
    [{ owner := ⟨"Calc"⟩, line := 5, tests :=
        [⟨"adds", ⟨"CalcTest"⟩, 2⟩, ⟨"zeroes", ⟨"CalcTest"⟩, 1⟩, ⟨"adds", ⟨"OtherTest"⟩, 2⟩] },
     { owner := ⟨"Calc"⟩, line := 6, tests := [⟨"quick", ⟨"OtherTest"⟩, 0⟩] },
     { owner := ⟨"Calc"⟩, line := 5, tests :=
        [⟨"adds", ⟨"OtherTest"⟩, 2⟩, ⟨"quick", ⟨"CalcTest"⟩, 1⟩, ⟨"adds", ⟨"CalcTest"⟩, 2⟩] }]

/-- The entries and some of the tests of `sharedLine` in another order. -/
def sharedLineReversed : Program where
  coverage :=
    [{ owner := ⟨"Calc"⟩, line := 5, tests :=
        [⟨"quick", ⟨"CalcTest"⟩, 1⟩, ⟨"adds", ⟨"OtherTest"⟩, 2⟩, ⟨"adds", ⟨"CalcTest"⟩, 2⟩] },
     { owner := ⟨"Calc"⟩, line := 6, tests := [⟨"quick", ⟨"OtherTest"⟩, 0⟩] },
     { owner := ⟨"Calc"⟩, line := 5, tests :=
        [⟨"adds", ⟨"CalcTest"⟩, 2⟩, ⟨"zeroes", ⟨"CalcTest"⟩, 1⟩, ⟨"adds", ⟨"OtherTest"⟩, 2⟩] }]

theorem coveringTests_arranged_sharedLine :
    Rearranges sharedLine.coverage sharedLineReversed.coverage ∧
    sharedLine.coveringTests ⟨"Calc"⟩ 5 =
      [⟨"quick", ⟨"CalcTest"⟩, 1⟩, ⟨"zeroes", ⟨"CalcTest"⟩, 1⟩, ⟨"adds", ⟨"CalcTest"⟩, 2⟩,
        ⟨"adds", ⟨"OtherTest"⟩, 2⟩] ∧
    sharedLineReversed.coveringTests ⟨"Calc"⟩ 5 =
      [⟨"quick", ⟨"CalcTest"⟩, 1⟩, ⟨"zeroes", ⟨"CalcTest"⟩, 1⟩, ⟨"adds", ⟨"OtherTest"⟩, 2⟩,
        ⟨"adds", ⟨"CalcTest"⟩, 2⟩] ∧
    (sharedLineReversed.coveringTests ⟨"Calc"⟩ 5).Perm (sharedLine.coveringTests ⟨"Calc"⟩ 5) ∧
    (sharedLineReversed.coveringTests ⟨"Calc"⟩ 5).map (fun t => (t.timeMs, t.name)) =
      (sharedLine.coveringTests ⟨"Calc"⟩ 5).map fun t => (t.timeMs, t.name) := by
  have hrearranges : Rearranges sharedLine.coverage sharedLineReversed.coverage := by
    refine ⟨sharedLine.coverage.reverse, sharedLine.coverage.reverse_perm.symm, ?_⟩
    exact .cons ⟨rfl, rfl, by decide⟩ (.cons ⟨rfl, rfl, .refl _⟩ (.cons ⟨rfl, rfl, .refl _⟩ .nil))
  exact ⟨hrearranges, by decide, by decide,
    (coveringTests_arranged sharedLine ⟨"Calc"⟩ 5).2.2 sharedLineReversed hrearranges⟩

end Program

end StackMutants
