import CueCheck.Proofs.DocumentReading
import CueCheck.Proofs.IssueKinds
import CueCheck.Proofs.RoundingError

/-!
Durations as they are shown: a long duration is told in tenths of a second, an exact half goes up,
and it goes down only where the seconds are rounded down before they are told.
-/

namespace CueCheck

open Binary64

theorem Tenths.count_ofFinite_eq_iff {negative : Bool} {m : Nat} {k : Int} {t : Nat} :
    (ofFinite negative m k).count = t ↔
      (t : ℚ) ≤ 10 * value m k + 1 / 2 ∧ 10 * value m k + 1 / 2 < t + 1 := by
  have hlow : t ≤ (ofFinite negative m k).count ↔ (t : ℚ) ≤ 10 * value m k + 1 / 2 := by
    rw [← Nat.not_lt, Tenths.count_ofFinite_lt_iff, not_lt]
    constructor <;> intro h <;> linarith
  have hhigh : (ofFinite negative m k).count < t + 1 ↔ 10 * value m k + 1 / 2 < t + 1 := by
    rw [Tenths.count_ofFinite_lt_iff]
    push_cast
    constructor <;> intro h <;> linarith
  rw [← hlow, ← hhigh]
  omega

theorem Tenths.text?_eq_ok {t : Tenths} (hsign : t.negative = false)
    (h : t.count < tenPow maxDigits) : t.text? = .ok s!"{t.count / 10}.{t.count % 10}" := by
  rw [text?, if_pos h, text, hsign]
  simp

namespace Entry

variable {e : Entry}

theorem seconds_of_pos (hpos : 0 < e.duration) (h : e.duration.natAbs < 2 ^ 40) :
    ∃ m k, 0 < m ∧ e.seconds = .ok (finite false m k) ∧
      value m k = rounded e.duration.natAbs 1000 := by
  obtain ⟨x, hx, -, heq⟩ := seconds_eq_ok h
  obtain ⟨m, k, hm, rfl⟩ := seconds_pos hpos hx
  rw [decide_eq_false (by omega)] at heq
  refine ⟨m, k, hm, hx, ?_⟩
  rcases ofQuotient_cases false (by omega : 0 < e.duration.natAbs) (by decide : 0 < 1000) with
    ⟨-, m', k', hfinite, hvalue⟩ | ⟨-, hinfinite⟩
  · rw [hfinite] at heq
    injection heq with _ hmantissa hexponent
    rw [hmantissa, hexponent, hvalue]
  · rw [hinfinite] at heq
    cases heq

end Entry

/-- The seconds of a duration lie below it when they are rounded. -/
def FallsShort (duration : Int) : Prop := rounded duration.natAbs 1000 < duration / 1000

instance (duration : Int) : Decidable (FallsShort duration) :=
  inferInstanceAs (Decidable (_ < _))

section Seconds

variable {d : Nat}

theorem fallsShort_natCast : FallsShort d ↔ rounded d 1000 < d / 1000 := by
  rw [FallsShort, Int.natAbs_natCast, Int.cast_natCast]

theorem abs_rounded_seconds_sub_le (hpos : 0 < d) :
    |rounded d 1000 - d / 1000| ≤ (d / 1000 / 2 ^ 53 : ℚ) := by
  have hone : (1 : ℚ) ≤ d := by exact_mod_cast hpos
  have hsize : (2 : ℚ) ^ (-1022 : Int) ≤ d / (1000 : Nat) := by
    calc (2 : ℚ) ^ (-1022 : Int) ≤ 2 ^ (-10 : Int) := zpow_le_zpow_right₀ one_le_two (by decide)
      _ ≤ 1 / 1000 := by norm_num
      _ ≤ d / (1000 : Nat) := by
        push_cast
        gcongr
  exact_mod_cast abs_rounded_sub_le hpos (by decide) hsize

/-- Tenths of seconds: rounding the quotient moves nothing but exact halves. -/
theorem count_seconds {m : Nat} {k : Int} (hpos : 0 < d) (hlt : d < 2 ^ 40)
    (hvalue : value m k = rounded d 1000) :
    (Tenths.ofFinite false m k).count =
      if d % 100 = 50 ∧ FallsShort d then d / 100 else (d + 50) / 100 := by
  have herror := abs_le.1 (abs_rounded_seconds_sub_le hpos)
  have hsmall : (d / 1000 / 2 ^ 53 : ℚ) < 1 / 1000 := by
    have hltq : (d : ℚ) < 2 ^ 40 := by exact_mod_cast hlt
    rw [div_div, div_lt_div_iff₀ (by positivity) (by positivity)]
    linarith
  have hsplit := Nat.div_add_mod (d + 50) 100
  have hsplitq : (100 * ((d + 50) / 100 : Nat) + ((d + 50) % 100 : Nat) : ℚ) = d + 50 := by
    exact_mod_cast hsplit
  rw [Tenths.count_ofFinite_eq_iff, hvalue]
  by_cases hhalf : d % 100 = 50
  · -- The exact value is the bound between two tenths.
    have hrest : (d + 50) % 100 = 0 := by omega
    rw [hrest, Nat.cast_zero, add_zero] at hsplitq
    by_cases hshort : FallsShort d
    · have hdiv : d / 100 + 1 = (d + 50) / 100 := by omega
      have hdivq : ((d / 100 : Nat) + 1 : ℚ) = ((d + 50) / 100 : Nat) := by exact_mod_cast hdiv
      rw [if_pos ⟨hhalf, hshort⟩]
      rw [fallsShort_natCast] at hshort
      constructor <;> linarith [herror.1]
    · rw [if_neg fun h => hshort h.2]
      rw [fallsShort_natCast, not_lt] at hshort
      constructor <;> linarith [herror.2]
  · have hrest : 1 ≤ (d + 50) % 100 ∧ (d + 50) % 100 ≤ 99 := by omega
    have hlow : (1 : ℚ) ≤ ((d + 50) % 100 : Nat) := by exact_mod_cast hrest.1
    have hhigh : (((d + 50) % 100 : Nat) : ℚ) ≤ 99 := by exact_mod_cast hrest.2
    rw [if_neg fun h => hhalf h.1]
    constructor <;> linarith [herror.1, herror.2]

end Seconds

namespace Entry

variable {rules : Rules} {e : Entry}

theorem filter_kind_eq_nil {issues : List Issue} {kind : IssueKind}
    (h : kind ∉ issues.map (·.kind)) : issues.filter (·.kind = kind) = [] := by
  rw [List.filter_eq_nil_iff]
  intro issue hissue hkind
  exact h (List.mem_map.2 ⟨issue, hissue, of_decide_eq_true hkind⟩)

/-- Of all that a check finds, only the check for long durations tells one. -/
theorem longIssues_of_check {next? : Option Entry} {issues : List Issue}
    (h : e.check rules next? = .ok issues) :
    e.longIssues rules = .ok (issues.filter (·.kind = .longDuration)) := by
  obtain ⟨long, fast, hlong, hfast, rfl⟩ := check_eq_ok h
  have hself : long.filter (·.kind = .longDuration) = long := by
    rw [List.filter_eq_self]
    intro issue hissue
    have hmem := List.mem_map_of_mem (f := (·.kind)) hissue
    rw [kinds_of_longIssues hlong, IssueKind.mem_when] at hmem
    exact decide_eq_true hmem.2
  have hstructural : e.structuralIssues.filter (·.kind = .longDuration) = [] :=
    filter_kind_eq_nil (by simp [kinds_of_structuralIssues])
  have hoverlap : (e.overlapIssues next?).filter (·.kind = .longDuration) = [] :=
    filter_kind_eq_nil (by simp [kinds_of_overlapIssues])
  have hshort : (e.shortIssues rules).filter (·.kind = .longDuration) = [] :=
    filter_kind_eq_nil (by simp [kinds_of_shortIssues])
  have hwide : (e.lineLengthIssues rules).filter (·.kind = .longDuration) = [] :=
    filter_kind_eq_nil (by simp [kinds_of_lineLengthIssues])
  have hspeed : fast.filter (·.kind = .longDuration) = [] :=
    filter_kind_eq_nil (by simp [kinds_of_speedIssues hfast])
  have hlines : (e.lineCountIssues rules).filter (·.kind = .longDuration) = [] :=
    filter_kind_eq_nil (by simp [kinds_of_lineCountIssues])
  simp only [List.filter_append, hself, hstructural, hoverlap, hshort, hwide, hspeed, hlines,
    List.nil_append, List.append_nil]
  exact hlong

theorem longIssues_eq_of_count {m : Nat} {k : Int} {t : Nat}
    (hseconds : e.seconds = .ok (finite false m k)) (hlong : rules.maxDuration < e.duration)
    (ht : (Tenths.ofFinite false m k).count = t) (hlt : t < tenPow Tenths.maxDigits) :
    e.longIssues rules = .ok [⟨.longDuration, s!"Long duration ({t / 10}.{t % 10}s)"⟩] := by
  have hshown : oneDecimal (finite false m k) = .ok s!"{t / 10}.{t % 10}" := by
    rw [oneDecimal, ← ht]
    exact Tenths.text?_eq_ok rfl (by rwa [ht])
  rw [longIssues, if_pos hlong, hseconds]
  simp only [bind, Except.bind, hshown, pure, Except.pure, toString, String.append_assoc]

/-- A long duration is told in tenths of a second. -/
theorem longIssues_eq (hpos : 0 < e.duration) (h : e.duration.natAbs < 2 ^ 40)
    (hlong : rules.maxDuration < e.duration) :
    ∃ q r : Nat, r ≤ 9 ∧
      (10 * q + r : Int) =
        (if e.duration % 100 = 50 ∧ FallsShort e.duration then e.duration / 100
          else (e.duration + 50) / 100) ∧
      e.longIssues rules = .ok [⟨.longDuration, s!"Long duration ({q}.{r}s)"⟩] := by
  obtain ⟨m, k, -, hseconds, hvalue⟩ := seconds_of_pos hpos h
  obtain ⟨d, hd⟩ := Int.eq_ofNat_of_zero_le (Int.le_of_lt hpos)
  rw [hd, Int.natAbs_natCast] at hvalue h
  have hcount := count_seconds (by omega) h hvalue
  have hdown : (e.duration % 100 = 50 ∧ FallsShort e.duration) ↔ d % 100 = 50 ∧ FallsShort d := by
    rw [hd]
    exact and_congr_left' (by omega)
  have hlt : (Tenths.ofFinite false m k).count < tenPow Tenths.maxDigits := by
    rw [hcount, tenPow, Tenths.maxDigits, Nat.pow_eq]
    split_ifs <;> omega
  refine ⟨_, _, ?_, ?_, longIssues_eq_of_count hseconds hlong rfl hlt⟩
  · omega
  · rw [hcount, if_congr hdown rfl rfl]
    split_ifs <;> omega

end Entry

namespace Document

/-- A long duration of a parsed document is told to the nearest tenth of a second, and an exact half
goes up unless its seconds fall short. -/
theorem longIssue_of_parse {content : Text} {filename : Option Text} {d : Document}
    (h : parse content filename = .ok d) {rules : Rules} (hmax : 0 ≤ rules.maxDuration) {i : Nat}
    {e : Entry} (he : d.entries[i]? = some e) (hm : e.malformed = false)
    (hlong : rules.maxDuration < e.duration) :
    (∃ q r : Nat, r ≤ 9 ∧
      (10 * q + r : Int) =
        (if e.duration % 100 = 50 ∧ FallsShort e.duration then e.duration / 100
          else (e.duration + 50) / 100) ∧
      e.longIssues rules = .ok [⟨.longDuration, s!"Long duration ({q}.{r}s)"⟩] ∧
      ∀ issues, d.checkAt rules i = .ok issues → issues.filter (·.kind = .longDuration) =
        [⟨.longDuration, s!"Long duration ({q}.{r}s)"⟩]) ∧
      (e.text.length < 2 ^ 69 → ∃ issues, d.checkAt rules i = .ok issues) := by
  have hread := isRead_of_parse h (mem_subtitles.2 ⟨List.mem_of_getElem? he, hm⟩)
  have hpos : 0 < e.duration := Int.lt_of_le_of_lt hmax hlong
  have hsize : e.duration.natAbs < 2 ^ 40 := by
    have hstart := hread.start_nonneg
    have hstop := hread.stop_lt
    rw [Entry.duration] at hpos ⊢
    omega
  constructor
  · obtain ⟨q, r, hr, htenths, hissues⟩ := Entry.longIssues_eq hpos hsize hlong
    refine ⟨q, r, hr, htenths, hissues, ?_⟩
    intro issues hcheck
    rw [checkAt_eq rules he] at hcheck
    rw [Entry.longIssues_of_check hcheck] at hissues
    injection hissues
  · intro htext
    rw [checkAt_eq rules he]
    exact Entry.check_eq_ok_of_lt hsize htext rules _

theorem longIssue_of_parse_half :
    let content := "1\n00:00:01,000 --> 00:00:08,150\nHi".toList
    ∃ (d : Document) (e : Entry), parse content none = .ok d ∧ 0 ≤ ({} : Rules).maxDuration ∧
      d.entries[0]? = some e ∧ e.malformed = false ∧
      ({} : Rules).maxDuration < e.duration ∧ e.duration = 7150 ∧
      ((∃ q r : Nat, r ≤ 9 ∧
        (10 * q + r : Int) =
          (if e.duration % 100 = 50 ∧ FallsShort e.duration then e.duration / 100
            else (e.duration + 50) / 100) ∧
        e.longIssues {} = .ok [⟨.longDuration, s!"Long duration ({q}.{r}s)"⟩] ∧
        ∀ issues, d.checkAt {} 0 = .ok issues → issues.filter (·.kind = .longDuration) =
          [⟨.longDuration, s!"Long duration ({q}.{r}s)"⟩]) ∧
        (e.text.length < 2 ^ 69 → ∃ issues, d.checkAt {} 0 = .ok issues)) := by
  intro content
  let e : Entry := { index := 1, start := 1000, stop := 8150, text := "Hi".toList, raw := content }
  have h : parse content none = .ok { entries := [e] } := by decide +kernel
  have hmax : 0 ≤ ({} : Rules).maxDuration := by decide
  have hlong : ({} : Rules).maxDuration < e.duration := by decide
  exact ⟨_, e, h, hmax, rfl, rfl, hlong, rfl, longIssue_of_parse h hmax (i := 0) rfl rfl hlong⟩

/-- The seconds of 7050 ms fall short of 7.05, and so they are told as 7.0 seconds. -/
theorem longIssue_of_parse_shortHalf :
    let content := "1\n00:00:01,000 --> 00:00:08,050\nHi".toList
    ∃ (d : Document) (e : Entry), parse content none = .ok d ∧ d.entries[0]? = some e ∧
      e.malformed = false ∧ e.duration = 7050 ∧ ({} : Rules).maxDuration < e.duration ∧
      d.checkAt {} 0 = .ok [⟨.longDuration, "Long duration (7.0s)"⟩] ∧
      ¬ ∃ q r : Nat, r ≤ 9 ∧ (10 * q + r : Int) = (e.duration + 50) / 100 ∧
        d.checkAt {} 0 = .ok [⟨.longDuration, s!"Long duration ({q}.{r}s)"⟩] := by
  intro content
  let e : Entry := { index := 1, start := 1000, stop := 8050, text := "Hi".toList, raw := content }
  have hparse : parse content none = .ok { entries := [e] } := by decide +kernel
  have hcheck : ({ entries := [e] } : Document).checkAt {} 0 =
      .ok [⟨.longDuration, "Long duration (7.0s)"⟩] := by decide +kernel
  refine ⟨_, e, hparse, rfl, rfl, rfl, by decide, hcheck, ?_⟩
  rintro ⟨q, r, hr, htenths, hissues⟩
  have hvalue : (e.duration + 50) / 100 = 71 := rfl
  have hq : q = 7 := by omega
  have hone : r = 1 := by omega
  rw [hcheck, hq, hone] at hissues
  revert hissues
  decide

end Document

end CueCheck
