import Mathlib.Data.Bool.AllAny
import MongoBouncer.GoStd.RegexpPlain
import MongoBouncer.Proxy.RouteMap

/-!
# Patterns read as globs

A pattern is meant as a glob: an asterisk stands for any string, every other character for itself. The
router looks at the ends of a pattern only. With an asterisk there it takes it off and searches for the
rest, with any other asterisk in it; without one it makes a regular expression of the pattern.

* `FitsGlob`       : the reading as a glob;
* `StarAtEnd`, `inner` : patterns with an asterisk at an end, and what the router searches for then.

Principal result: `getRoute_fitsGlob_iff`.
-/

namespace MongoBouncer

open GoStd

/-! ## Globs -/

/-- The name fits the pattern as a glob. -/
def FitsGlob (p n : GoString) : Prop := Glob.Fits 0x2A Glob.Any p n

instance (p n : GoString) : Decidable (FitsGlob p n) := Glob.decidableFits _ _ p n

/-! ## The ends of a pattern -/

/-- The pattern starts with an asterisk. -/
def StartsWithStar (p : GoString) : Prop := p.head? = some 0x2A

/-- The pattern ends with an asterisk. -/
def EndsWithStar (p : GoString) : Prop := p.getLast? = some 0x2A

instance (p : GoString) : Decidable (StartsWithStar p) := inferInstanceAs (Decidable (_ = _))

instance (p : GoString) : Decidable (EndsWithStar p) := inferInstanceAs (Decidable (_ = _))

/-- What the router searches for: the pattern without the asterisks at both ends, or without the one
at its only end. -/
def inner (p : GoString) : GoString :=
  if StartsWithStar p ∧ EndsWithStar p then trimByte 0x2A p
  else if StartsWithStar p then p.tail
  else p.dropLast

/-- Where the router searches: anywhere, at the end or at the start. -/
def FoundIn (p n u : GoString) : Prop :=
  if StartsWithStar p ∧ EndsWithStar p then u <:+: n
  else if StartsWithStar p then u <:+ n
  else u <+: n

/-- The pattern has an asterisk at an end. -/
def StarAtEnd (p : GoString) : Prop := StartsWithStar p ∨ EndsWithStar p

instance (p : GoString) : Decidable (StarAtEnd p) := inferInstanceAs (Decidable (_ ∨ _))

theorem hasPrefix_star {p : GoString} : hasPrefix p (lit "*") = true ↔ StartsWithStar p := by
  cases p with
  | nil => decide
  | cons b p =>
    show ((0x2A : UInt8) == b && true) = true ↔ some b = some 0x2A
    rw [Bool.and_true, beq_iff_eq, Option.some.injEq, eq_comm]

theorem hasSuffix_star {p : GoString} : hasSuffix p (lit "*") = true ↔ EndsWithStar p := by
  unfold hasSuffix EndsWithStar
  rw [List.isSuffixOf_iff_suffix]
  constructor
  · rintro ⟨t, rfl⟩
    exact List.getLast?_concat
  · intro h
    obtain ⟨t, rfl⟩ := List.getLast?_eq_some_iff.mp h
    exact ⟨t, rfl⟩

theorem matches_ended {p n : GoString} (hend : StarAtEnd p) :
    Matches p n = true ↔ FoundIn p n (inner p) := by
  unfold Matches RouteTable.patternRoute
  by_cases hfirst : StartsWithStar p
  · by_cases hlast : EndsWithStar p
    · simp only [hasPrefix_star.mpr hfirst, hasSuffix_star.mpr hlast, Bool.and_self, if_true,
        matchesPattern, FoundIn, inner, hfirst, hlast, and_self, contains_iff]
    · have hfinish : hasSuffix p (lit "*") = false := by
        rw [← Bool.not_eq_true, hasSuffix_star]
        exact hlast
      simp only [hasPrefix_star.mpr hfirst, hfinish, Bool.and_false, Bool.false_eq_true, if_false,
        if_true, matchesPattern, FoundIn, inner, hfirst, hlast, and_false, trimPrefix]
      rw [hasSuffix, List.isSuffixOf_iff_suffix]
      show p.drop 1 <:+ n ↔ _
      rw [List.drop_one]
  · have hlast : EndsWithStar p := hend.resolve_left hfirst
    have hstart : hasPrefix p (lit "*") = false := by
      rw [← Bool.not_eq_true, hasPrefix_star]
      exact hfirst
    simp only [hstart, hasSuffix_star.mpr hlast, Bool.false_and, Bool.false_eq_true, if_false,
      if_true, matchesPattern, FoundIn, inner, hfirst, false_and, trimSuffix]
    rw [hasPrefix, List.isPrefixOf_iff_prefix]
    show p.take (p.length - 1) <+: n ↔ _
    rw [← List.dropLast_eq_take]

theorem matches_inside {p n : GoString} (hend : ¬ StarAtEnd p) :
    Matches p n = true ↔ matchString (anchored p) n = some true := by
  obtain ⟨hfirst, hlast⟩ := not_or.mp hend
  have hstart : hasPrefix p (lit "*") = false := by
    rw [← Bool.not_eq_true, hasPrefix_star]
    exact hfirst
  have hfinish : hasSuffix p (lit "*") = false := by
    rw [← Bool.not_eq_true, hasSuffix_star]
    exact hlast
  unfold Matches RouteTable.patternRoute
  simp only [hstart, hfinish, Bool.and_self, Bool.false_eq_true, if_false, matchesPattern]
  show (matchString (anchored p) n).getD false = true ↔ _
  cases matchString (anchored p) n with
  | none => simp
  | some b => simp

/-- Between the asterisks at both ends of a pattern is its inner part. -/
theorem exists_between {p : GoString} (hp : IsPattern p) (hfirst : StartsWithStar p)
    (hlast : EndsWithStar p) :
    ∃ a b, a ≠ [] ∧ (∀ c ∈ a, c = 0x2A) ∧ b ≠ [] ∧ (∀ c ∈ b, c = 0x2A) ∧
      p = a ++ trimByte 0x2A p ++ b := by
  obtain ⟨t, rfl⟩ : ∃ t, p = 0x2A :: t := by
    cases p with
    | nil => cases hfirst
    | cons c t => exact ⟨t, by rw [Option.some.inj hfirst]⟩
  have ht : t ≠ [] := by
    rintro rfl
    exact hp.2 rfl
  have hdrop : (0x2A :: t : GoString).dropWhile (· == 0x2A) = t.dropWhile (· == 0x2A) := rfl
  by_cases hd : t.dropWhile (· == 0x2A) = []
  · -- nothing but asterisks
    have hall : ∀ c ∈ t, c = 0x2A := by
      intro c hc
      exact eq_of_beq (List.dropWhile_eq_nil_iff.mp hd c hc)
    refine ⟨[0x2A], t, List.cons_ne_nil _ _, by simp, ht, hall, ?_⟩
    rw [trimByte, hdrop, hd]
    rfl
  · refine ⟨0x2A :: t.takeWhile (· == 0x2A), (t.dropWhile (· == 0x2A)).rtakeWhile (· == 0x2A),
      List.cons_ne_nil _ _, ?_, ?_, ?_, ?_⟩
    · intro c hc
      rcases List.mem_cons.mp hc with rfl | hc
      · rfl
      · exact beq_iff_eq.mp (List.mem_takeWhile_imp (p := (· == 0x2A)) hc)
    · -- the last asterisk was not taken off at the start
      have hend : (t.dropWhile (· == 0x2A)).getLast? = some 0x2A := by
        have hcut : (0x2A :: t.takeWhile (· == 0x2A)) ++ t.dropWhile (· == 0x2A) = 0x2A :: t := by
          rw [List.cons_append, List.takeWhile_append_dropWhile]
        have hsame := List.getLast?_append_of_ne_nil (0x2A :: t.takeWhile (· == 0x2A)) hd
        rw [hcut] at hsame
        exact hsame.symm.trans hlast
      intro hnil
      have hno := List.rtakeWhile_eq_nil_iff.mp hnil hd
      rw [List.getLast?_eq_some_getLast hd] at hend
      exact hno (beq_iff_eq.mpr (Option.some.inj hend))
    · intro c hc
      exact beq_iff_eq.mp (List.mem_rtakeWhile_imp (p := (· == 0x2A)) hc)
    · rw [trimByte, hdrop, List.append_assoc, List.rdropWhile_append_rtakeWhile, List.cons_append,
        List.takeWhile_append_dropWhile]

/-- A glob with an asterisk at an end: the inner part fits a part of the name. -/
theorem fitsGlob_ended {p n : GoString} (hp : IsPattern p) (hend : StarAtEnd p) :
    FitsGlob p n ↔ ∃ u, FoundIn p n u ∧ FitsGlob (inner p) u := by
  unfold FitsGlob
  by_cases hfirst : StartsWithStar p
  · by_cases hlast : EndsWithStar p
    · simp only [FoundIn, inner, hfirst, hlast, and_self, if_true]
      obtain ⟨a, b, ha, hastar, hb, hbstar, hpab⟩ := exists_between hp hfirst hlast
      conv_lhs => rw [hpab]
      exact Glob.fits_between ha hastar hb hbstar
    · simp only [FoundIn, inner, hfirst, hlast, and_false, if_false, if_true]
      cases p with
      | nil => cases hfirst
      | cons c t =>
        obtain rfl : c = 0x2A := Option.some.inj hfirst
        exact Glob.fits_cons_star
  · have hlast : EndsWithStar p := hend.resolve_left hfirst
    simp only [FoundIn, inner, hfirst, false_and, if_false]
    obtain ⟨t, rfl⟩ := List.getLast?_eq_some_iff.mp hlast
    rw [List.dropLast_concat]
    exact Glob.fits_append_star

theorem mem_of_foundIn {p n u : GoString} {b : UInt8} (h : FoundIn p n u) (hb : b ∈ u) : b ∈ n := by
  unfold FoundIn at h
  split at h
  · exact h.subset hb
  · split at h
    · exact h.subset hb
    · exact h.subset hb

/-! ## The router -/

variable {p n : GoString}

/-- With asterisks at the ends only, the router finds what fits. -/
theorem matches_iff_of_ended (hp : IsPattern p) (hend : StarAtEnd p) (hinner : 0x2A ∉ inner p) :
    Matches p n = true ↔ FitsGlob p n := by
  have hfits : ∀ u, FitsGlob (inner p) u ↔ u = inner p := fun _ => Glob.fits_literal hinner
  rw [matches_ended hend, fitsGlob_ended hp hend]
  simp only [hfits]
  constructor
  · intro h
    exact ⟨inner p, h, rfl⟩
  · rintro ⟨-, h, rfl⟩
    exact h

/-- An asterisk that is left between the ends is looked for in the name. -/
theorem not_matches_of_inner (hend : StarAtEnd p) (hinner : 0x2A ∈ inner p) (hn : 0x2A ∉ n) :
    Matches p n ≠ true := by
  rw [Ne, matches_ended hend]
  intro h
  exact hn (mem_of_foundIn h hinner)

/-- The regular expression of a plain pattern matches the names on one line that fit. -/
theorem matchString_iff_fitsGlob (hp : IsPlain p) (hn : encode (runes n) = n) (hline : 0x0A ∉ n) :
    matchString (anchored p) n = some true ↔ FitsGlob p n := by
  rw [matchString_anchored hp hn]
  constructor
  · exact Glob.Fits.mono fun _ _ => rfl
  · intro hfits
    refine Glob.Fits.restrict hfits fun b hb => ?_
    rw [bne_iff_ne]
    rintro rfl
    exact hline hb

theorem eq_star_of_toLower {s : GoString} (h : toLower s = lit "*") : s = lit "*" := by
  have hrunes : (runes s).map lowerRune = ['*'] := by
    rw [← runes_encode ((runes s).map lowerRune), ← runes_encode ['*']]
    exact congrArg runes h
  have hne : s ≠ [] := by
    rintro rfl
    cases hrunes
  obtain ⟨c, bs, t, -, rfl, hspans, hkind⟩ := spans_cases hne
  rw [runes, hspans, List.map_cons, List.map_cons] at hrunes
  obtain ⟨hlower, hrest⟩ := List.cons.inj hrunes
  have hc : c = '*' := by
    rw [← hlower]
    refine (lowerRune_eq_of_lt ?_).symm
    rw [hlower]
    decide
  have ht : t = [] := runes_eq_nil.mp (List.map_eq_nil_iff.mp hrest)
  subst hc ht
  rw [List.append_nil]
  rcases hkind with rfl | ⟨hinvalid, -, -⟩
  · rfl
  · exact absurd hinvalid (by decide)

theorem isPattern_normalize {pattern : GoString} (hstar : 0x2A ∈ pattern)
    (hne : pattern ≠ lit "*") : IsPattern (normalizeDatabaseName pattern) := by
  constructor
  · have hcontains : contains pattern (encode ['*']) = true :=
      RouteTable.contains_asterisk.mpr hstar
    exact RouteTable.contains_asterisk.mp (contains_toLower
      (List.all_iff_forall_prop.mp (by decide)) hcontains)
  · intro h
    exact hne (eq_star_of_toLower h)

/-- A router with one pattern has a route for the names that the pattern matches. -/
theorem exists_getRoute_addRoute {pattern : GoString}
    (hp : IsPattern (normalizeDatabaseName pattern)) (config : RouteRef) (now : Int)
    (name : GoString) :
    (∃ r, ((DatabaseRouter.new.addRoute pattern config).getRoute now name).1 = .ok r) ↔
      Matches (normalizeDatabaseName pattern) (normalizeDatabaseName name) = true := by
  have hcontains := RouteTable.contains_asterisk.mpr hp.1
  have htable : (DatabaseRouter.new.addRoute pattern config).table =
      { RouteTable.empty with
        patternRoutes := [RouteTable.patternRoute (normalizeDatabaseName pattern) config] } := by
    show RouteTable.empty.addRoute pattern config = _
    simp only [RouteTable.addRoute, if_neg hp.2, if_pos hcontains]
    rfl
  rw [DatabaseRouter.getRoute_eq, htable, ← RouteTable.matchesPattern_patternRoute _ _ config]
  simp only [RouteTable.route, RouteTable.lookup, RouteTable.empty, List.find?_cons, List.find?_nil]
  cases matchesPattern (normalizeDatabaseName name)
      (RouteTable.patternRoute (normalizeDatabaseName pattern) config) with
  | true => simp
  | false => simp

theorem exists_fits_without_star (pattern : GoString) : ∃ name,
    0x2A ∉ normalizeDatabaseName name ∧
      FitsGlob (normalizeDatabaseName pattern) (normalizeDatabaseName name) := by
  let rs := (runes pattern).map lowerRune
  let ns := rs.filter (· ≠ '*')
  have hlower : ns.map lowerRune = ns := by
    refine (List.map_congr_left ?_).trans (List.map_id ns)
    intro c hc
    obtain ⟨d, -, rfl⟩ := List.mem_map.mp (List.mem_filter.mp hc).1
    exact lowerRune_idem d
  have hname : normalizeDatabaseName (encode ns) = encode ns := by
    unfold normalizeDatabaseName toLower
    rw [runes_encode, hlower]
  refine ⟨encode ns, ?_, ?_⟩
  · rw [hname]
    intro hmem
    obtain ⟨c, hc, hbyte⟩ := List.mem_flatMap.mp hmem
    exact starCode_utf8.otherWord c (of_decide_eq_true (List.mem_filter.mp hc).2) hbyte
  · rw [hname]
    have hfits := (Glob.fits_flatMap selfSync_utf8 starCode_utf8).mpr (Glob.fits_without (p := rs))
    exact Glob.Fits.mono (fun _ _ => rfl) hfits

/-- **When the router reads a pattern as a glob.** The pattern has an asterisk and is not the wildcard,
and if it has asterisks inside only, no other character that is special in a regular expression. As the
only one of a router, it routes exactly the names that fit the glob, line breaks apart if the asterisks
are inside, if, and only if, no asterisk is left when those at the ends are taken off. -/
theorem getRoute_fitsGlob_iff {pattern : GoString} (hstar : 0x2A ∈ pattern)
    (hne : pattern ≠ lit "*")
    (hplain : ¬ StarAtEnd (normalizeDatabaseName pattern) → IsPlain (normalizeDatabaseName pattern))
    (config : RouteRef) (now : Int) :
    (∀ name, StarAtEnd (normalizeDatabaseName pattern) ∨ 0x0A ∉ normalizeDatabaseName name →
        ((∃ r, ((DatabaseRouter.new.addRoute pattern config).getRoute now name).1 = .ok r) ↔
          FitsGlob (normalizeDatabaseName pattern) (normalizeDatabaseName name))) ↔
      (StarAtEnd (normalizeDatabaseName pattern) → 0x2A ∉ inner (normalizeDatabaseName pattern)) := by
  have hp := isPattern_normalize hstar hne
  simp only [exists_getRoute_addRoute hp config now]
  constructor
  · intro h hend hinner
    obtain ⟨name, hname, hfits⟩ := exists_fits_without_star pattern
    exact not_matches_of_inner hend hinner hname ((h name (Or.inl hend)).mpr hfits)
  · intro h name hname
    by_cases hend : StarAtEnd (normalizeDatabaseName pattern)
    · exact matches_iff_of_ended hp hend (h hend)
    · have hn : encode (runes (normalizeDatabaseName name)) = normalizeDatabaseName name := by
        unfold normalizeDatabaseName toLower
        rw [runes_encode]
      rw [matches_inside hend]
      exact matchString_iff_fitsGlob (hplain hend) hn (hname.resolve_left hend)

/-- An asterisk among plain characters, and a name on one line. -/
theorem getRoute_fitsGlob_sales :
    ((∃ r, ((DatabaseRouter.new.addRoute (lit "Sales_*_EU") 1).getRoute 0
        (lit "SALES_2024_eu")).1 = .ok r) ↔
      FitsGlob (lit "sales_*_eu") (lit "sales_2024_eu")) ∧
      FitsGlob (lit "sales_*_eu") (lit "sales_2024_eu") := by
  have heval : normalizeDatabaseName (lit "Sales_*_EU") = lit "sales_*_eu" ∧
      normalizeDatabaseName (lit "SALES_2024_eu") = lit "sales_2024_eu" ∧
      0x2A ∈ lit "Sales_*_EU" ∧ lit "Sales_*_EU" ≠ lit "*" ∧ IsPlain (lit "sales_*_eu") ∧
      ¬ StarAtEnd (lit "sales_*_eu") ∧ 0x0A ∉ lit "sales_2024_eu" ∧
      FitsGlob (lit "sales_*_eu") (lit "sales_2024_eu") := by decide +kernel
  obtain ⟨hp, hn, hstar, hne, hplain, hend, hline, hfits⟩ := heval
  have hiff := getRoute_fitsGlob_iff hstar hne
  rw [hp] at hiff
  have hroute := (hiff (fun _ => hplain) 1 0).mpr (fun h => absurd h hend) (lit "SALES_2024_eu")
  rw [hn] at hroute
  exact ⟨hroute (Or.inr hline), hfits⟩

/-- **A second asterisk is looked for in the name.** The name fits `tenant_*_eu_*` and has no
route. -/
theorem tenant_without_route :
    ((DatabaseRouter.new.addRoute (lit "tenant_*_eu_*") 1).getRoute 0 (lit "tenant_7_eu_crm")).1 =
        .error ⟨lit "no route found for database: tenant_7_eu_crm"⟩ ∧
      FitsGlob (normalizeDatabaseName (lit "tenant_*_eu_*"))
        (normalizeDatabaseName (lit "tenant_7_eu_crm")) := by
  decide +kernel

end MongoBouncer
