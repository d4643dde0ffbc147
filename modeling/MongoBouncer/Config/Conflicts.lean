import MongoBouncer.Config.Databases
import MongoBouncer.Proxy.PatternGlob

/-!
# Alarms about patterns

The check of the configuration refuses two patterns that may match one database. It does not look for
such a database: it counts how many of twenty sample names either pattern matches, and refuses two
patterns with the same number of them. Patterns that have no name in common are then refused as well.

* `DisjointGlobs`, `DisjointTable` : no name fits both patterns, and tables with nothing to refuse;
* `Quiet`                          : what the sample names say about two patterns when nothing is refused.

Principal result: `no_alarm_of_quiet`.
-/

namespace MongoBouncer

open GoStd

namespace Config

/-- No name fits both patterns. -/
def DisjointGlobs (p q : GoString) : Prop := ∀ n, ¬ (FitsGlob p n ∧ FitsGlob q n)

/-- A table with nothing to refuse: the exact names differ after they are normalised, and no name
fits two of the patterns other than the wildcard. -/
structure DisjointTable (order : List (GoString × TomlValue)) : Prop where
  keys : order.Pairwise fun e e' => e.1 ≠ e'.1
  exact : order.Pairwise fun e e' =>
    0x2A ∉ normalizeDatabaseName e.1 → normalizeDatabaseName e.1 ≠ normalizeDatabaseName e'.1
  patterns : order.Pairwise fun e e' =>
    IsPattern (normalizeDatabaseName e.1) → IsPattern (normalizeDatabaseName e'.1) →
      DisjointGlobs (normalizeDatabaseName e.1) (normalizeDatabaseName e'.1)

/-- How many of the sample names fit one of the two patterns. -/
def fitted (p q : GoString) : Nat := testNames.countP fun n => decide (FitsGlob p n ∨ FitsGlob q n)

/-- No sample name fits one of the patterns, or those that fit either are an odd number. -/
def Quiet (p q : GoString) : Prop :=
  (∀ n ∈ testNames, ¬ FitsGlob p n) ∨ (∀ n ∈ testNames, ¬ FitsGlob q n) ∨ fitted p q % 2 = 1

instance (p q : GoString) : Decidable (Quiet p q) := inferInstanceAs (Decidable (_ ∨ _ ∨ _))

theorem valid_testNames : ∀ n ∈ testNames, encode (runes n) = n ∧ 0x0A ∉ n := by decide +kernel

/-- **The check counts the sample names that fit.** -/
theorem testMatches_eq {p : GoString} (hp : IsPlain p) :
    testMatches p = testNames.countP fun n => decide (FitsGlob p n) := by
  have htest : testMatches p = testNames.countP fun n =>
      (matchString (anchored p) n).getD false := rfl
  rw [htest]
  apply List.countP_congr
  intro n hn
  obtain ⟨hvalid, hline⟩ := valid_testNames n hn
  have hmatch : (matchString (anchored p) n).getD false = true ↔
      matchString (anchored p) n = some true := by
    cases matchString (anchored p) n with
    | none => simp
    | some b => simp
  rw [hmatch, matchString_iff_fitsGlob hp hvalid hline, decide_eq_true_eq]

/-- Sample names that fit one of two disjoint patterns are counted for one of them. -/
theorem fitted_eq {p q : GoString} (hp : IsPlain p) (hq : IsPlain q) (h : DisjointGlobs p q) :
    fitted p q = testMatches p + testMatches q := by
  rw [testMatches_eq hp, testMatches_eq hq, fitted]
  induction testNames with
  | nil => rfl
  | cons n l ih =>
    have hn := h n
    by_cases hfits : FitsGlob p n
    · have hother : ¬ FitsGlob q n := fun hq => hn ⟨hfits, hq⟩
      simp only [List.countP_cons, hfits, hother, ih, true_or, decide_true, decide_false, if_true,
        Bool.false_eq_true, if_false]
      omega
    · simp only [List.countP_cons, hfits, ih, false_or, decide_false, Bool.false_eq_true, if_false]
      omega

theorem testMatches_eq_zero {p : GoString} (hp : IsPlain p) (h : ∀ n ∈ testNames, ¬ FitsGlob p n) :
    testMatches p = 0 := by
  rw [testMatches_eq hp, List.countP_eq_zero]
  intro n hn
  simpa using h n hn

theorem patternsConflict_of_quiet {p q : GoString} (hp : IsPlain p) (hq : IsPlain q)
    (hdisjoint : DisjointGlobs p q) (h : Quiet p q) : patternsConflict p q = false := by
  rw [← Bool.not_eq_true, patternsConflict_iff]
  rintro ⟨hpos, hsame⟩
  rcases h with hnone | hnone | hodd
  · rw [testMatches_eq_zero hp hnone] at hpos
    exact absurd hpos (Nat.lt_irrefl 0)
  · rw [hsame, testMatches_eq_zero hq hnone] at hpos
    exact absurd hpos (Nat.lt_irrefl 0)
  · rw [fitted_eq hp hq hdisjoint, hsame] at hodd
    omega

theorem not_clashes {a b : GoString} (hkey : a ≠ b)
    (hexact : 0x2A ∉ normalizeDatabaseName a → normalizeDatabaseName a ≠ normalizeDatabaseName b)
    (hpatterns : IsPattern (normalizeDatabaseName a) → IsPattern (normalizeDatabaseName b) →
      patternsConflict (normalizeDatabaseName a) (normalizeDatabaseName b) = false) :
    ¬ Clashes (normalizeDatabaseName a) (normalizeDatabaseName b) := by
  rintro (⟨ha, hb⟩ | ⟨ha, hb, hconflict⟩ | ⟨ha, hab⟩)
  · exact hkey ((eq_star_of_toLower ha).trans (eq_star_of_toLower hb).symm)
  · rw [patternsConflict_comm, hpatterns ha hb] at hconflict
    cases hconflict
  · exact hexact ha hab

/-- **When there is no alarm.** Two plain patterns that no name fits both do not conflict if the sample
names are quiet about them; and a table with nothing to refuse, of whose patterns this holds, is
accepted if it is not empty. -/
theorem no_alarm_of_quiet {p q : GoString} (hp : IsPlain p) (hq : IsPlain q)
    (hdisjoint : DisjointGlobs p q) (hquiet : Quiet p q)
    {order : List (GoString × TomlValue)} (h : DisjointTable order)
    (hpatterns : order.Pairwise fun e e' =>
      IsPattern (normalizeDatabaseName e.1) → IsPattern (normalizeDatabaseName e'.1) →
        IsPlain (normalizeDatabaseName e.1) ∧ IsPlain (normalizeDatabaseName e'.1) ∧
          Quiet (normalizeDatabaseName e.1) (normalizeDatabaseName e'.1)) :
    patternsConflict p q = false ∧ (validateDatabaseNames order = .ok () ↔ order ≠ []) := by
  refine ⟨patternsConflict_of_quiet hp hq hdisjoint hquiet, ?_⟩
  have hclash : order.Pairwise fun e e' =>
      ¬ Clashes (normalizeDatabaseName e.1) (normalizeDatabaseName e'.1) := by
    refine (((h.keys.and h.exact).and h.patterns).and hpatterns).imp ?_
    rintro e e' ⟨⟨⟨hkey, hexact⟩, hdisjoint⟩, hquiet⟩
    refine not_clashes hkey hexact fun ha hb => ?_
    obtain ⟨hplain, hplain', hq⟩ := hquiet ha hb
    exact patternsConflict_of_quiet hplain hplain' (hdisjoint ha hb) hq
  rw [validateDatabaseNames_iff]
  exact ⟨fun h => h.1, fun h => ⟨h, hclash⟩⟩

theorem disjointGlobs_of_head {b c : UInt8} {p q : GoString} (hb : b ≠ 0x2A) (hc : c ≠ 0x2A)
    (hne : b ≠ c) : DisjointGlobs (b :: p) (c :: q) := by
  rintro n ⟨hp, hq⟩
  obtain ⟨s, rfl, -⟩ := (Glob.fits_cons hb).mp hp
  obtain ⟨t, ht, -⟩ := (Glob.fits_cons hc).mp hq
  exact hne (List.cons.inj ht).1

namespace Sample

def twoPatterns (p q : String) : List (GoString × TomlValue) :=
  [(lit p, .string (lit "mongodb://one:27017")), (lit q, .string (lit "mongodb://two:27017"))]

end Sample

/-- Three sample names fit `test*` and two fit `prod_*`. -/
theorem no_alarm_test_prod :
    patternsConflict (lit "test*") (lit "prod_*") = false ∧
      validateDatabaseNames (Sample.twoPatterns "test*" "prod_*") = .ok () := by
  have hdisjoint : DisjointGlobs (lit "test*") (lit "prod_*") :=
    disjointGlobs_of_head (b := 0x74) (c := 0x70) (by decide) (by decide) (by decide)
  have heval : normalizeDatabaseName (lit "test*") = lit "test*" ∧
      normalizeDatabaseName (lit "prod_*") = lit "prod_*" ∧ IsPlain (lit "test*") ∧
      IsPlain (lit "prod_*") ∧ lit "test*" ≠ lit "prod_*" ∧
      Quiet (lit "test*") (lit "prod_*") := by decide +kernel
  obtain ⟨htest, hprod, hplain, hplain', hne, hquiet⟩ := heval
  have htable : DisjointTable (Sample.twoPatterns "test*" "prod_*") := by
    constructor <;> simp [Sample.twoPatterns, htest, hprod, hne, hdisjoint]
  have hnone := no_alarm_of_quiet hplain hplain' hdisjoint hquiet htable
    (by simp [Sample.twoPatterns, htest, hprod, hplain, hplain', hquiet])
  exact ⟨hnone.1, hnone.2.mpr (List.cons_ne_nil _ _)⟩

/-- **A false alarm.** No name fits both `test_*` and `prod_*`, and two sample names fit either. -/
theorem alarm_test_prod :
    DisjointGlobs (lit "test_*") (lit "prod_*") ∧
      patternsConflict (lit "test_*") (lit "prod_*") = true ∧
      validateDatabaseNames (Sample.twoPatterns "test_*" "prod_*") =
        .error ⟨lit "conflicting database patterns detected: 'prod_*' and 'test_*' may match the " ++
          lit "same databases but point to different connections (mongodb://two:27017 vs " ++
          lit "mongodb://one:27017)"⟩ := by
  refine ⟨disjointGlobs_of_head (b := 0x74) (c := 0x70) (by decide) (by decide) (by decide), ?_⟩
  decide +kernel

end Config

end MongoBouncer
