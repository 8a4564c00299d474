import Conform.Proofs.Blanks
import Conform.Proofs.NodeReports

/-!
# Limits of dates

A limit is judged twice: when it is declared, or when what it refers to is known, by what an
argument must be, and when a date is compared with it, by the reader of dates. The two do not agree.
Declared, any finite number does, and of the texts the strict ones and `now`; compared, a number
must be that of a date whose year is in range, and every date text and numeral does that values are
read from. Here it is said exactly where they differ.

Two readers are compared. The strict one is asked when a limit is declared. The other one is asked
when a date is compared, and takes the strict form, some looser ones, and numerals, which are read
as milliseconds. They exclude one another: a date has a hyphen behind its first character, where the
year ends, and a numeral has none there (`hyphen_of_strict?`, `no_hyphen_of_isPlainNumeral`). So for
texts the difference is just what the looser forms and the numerals add.

For numbers the declaration asks for a finite one and the comparison for one whose date has a year
that can be written. Whole milliseconds are taken, held to 64 bits, and the year of the day has to
be in range; that the days in question are the first and the last of their years is computed in the
calendar (`year_le_iff`, `le_year_iff`).

Main statement: `limits_judged`.
-/

namespace Conform

/-! ### Years in range -/

namespace Civil

/-- The year of a day, by its place in four hundred years. -/
theorem year_ofDays (days : Int) : ∃ era day year month : Int, days + 719468 = era * 146097 + day ∧
    0 ≤ day ∧ day < 146097 ∧ year = (day - day / 1460 + day / 36524 - day / 146096) / 365 ∧
    month = (5 * (day - (365 * year + year / 4 - year / 100)) + 2) / 153 ∧
    (ofDays days).year =
      year + era * 400 + if (if month < 10 then month + 3 else month - 9) ≤ 2 then 1 else 0 :=
  ⟨(days + 719468) / 146097, (days + 719468) - (days + 719468) / 146097 * 146097, _, _,
    by omega, by omega, by omega, rfl, rfl, rfl⟩

/-- The last day in range is the last one of its year. -/
theorem year_le_iff (days : Int) : (ofDays days).year ≤ 262142 ↔ days ≤ 95026236 := by
  obtain ⟨era, day, year, month, hdays, hlow, hhigh, hyear, hmonth, heq⟩ := year_ofDays days
  have hbounds : 0 ≤ year ∧ year ≤ 399 := by omega
  rw [heq]
  -- 262142 is year 142 of era 655; in other years January and February do not matter
  rcases Int.lt_trichotomy era 655 with hera | rfl | hera
  · split <;> omega
  · rcases Int.lt_trichotomy year 142 with h | rfl | h
    · split <;> omega
    · split <;> omega
    · split <;> omega
  · split <;> omega

/-- The first day in range is the first one of its year. -/
theorem le_year_iff (days : Int) : -262143 ≤ (ofDays days).year ↔ -96465292 ≤ days := by
  obtain ⟨era, day, year, month, hdays, hlow, hhigh, hyear, hmonth, heq⟩ := year_ofDays days
  have hbounds : 0 ≤ year ∧ year ≤ 399 := by omega
  rw [heq]
  rcases Int.lt_trichotomy era (-656) with hera | rfl | hera
  · split <;> omega
  · rcases Int.lt_trichotomy year 256 with h | rfl | h
    · split <;> omega
    · split <;> omega
    · split <;> omega
  · split <;> omega

end Civil

namespace Instant

/-- The whole milliseconds of a number, held to 64 bits. -/
def wholeMillis (n : Number) : Int := n.round.clampInt (-0x8000000000000000) 0x7fffffffffffffff

/-- Milliseconds of a date whose year is in range. -/
def InRange (millis : Int) : Prop := -8334601228800000 ≤ millis ∧ millis ≤ 8210266876799999

theorem ofMillis?_isSome (millis : Int) : (ofMillis? millis).isSome = true ↔ InRange millis := by
  have hrange : Civil.yearInRange (Civil.ofDays (millis / 1000 / 86400)).year = true ↔
      InRange millis := by
    unfold Civil.yearInRange InRange
    rw [Bool.and_eq_true, decide_eq_true_eq, decide_eq_true_eq,
      Civil.le_year_iff, Civil.year_le_iff]
    omega
  unfold ofMillis?
  dsimp only
  rw [← hrange]
  split
  next h => exact iff_of_true rfl h
  next h => exact iff_of_false Bool.false_ne_true h

theorem ofNumber?_isSome (n : Number) :
    (ofNumber? n).isSome = true ↔ n.isFinite = true ∧ InRange (wholeMillis n) := by
  unfold ofNumber?
  split
  next h => exact (ofMillis?_isSome _).trans (and_iff_right h).symm
  next h => exact iff_of_false Bool.false_ne_true fun hboth => h hboth.1

end Instant

/-! ### Texts -/

namespace Time

/-- What is left when digits are taken stood behind the first character. -/
theorem number?_rest {least : Nat} (hleast : 1 ≤ least) {most : Option Nat}
    {cs rest : List Char} {n : Nat}
    (h : number? least most cs = some (n, rest)) : rest.Sublist cs.tail := by
  have hdrop : (spanDigits most cs).2 = cs.drop (spanDigits most cs).1.length := rfl
  unfold number? at h
  dsimp only at h
  generalize (spanDigits most cs).1 = digits at h hdrop
  generalize (spanDigits most cs).2 = left at h hdrop
  split at h
  · exact nomatch h
  next hnot =>
    obtain ⟨-, rfl⟩ := Prod.mk.inj (Option.some.inj h)
    rw [not_or, Nat.not_lt] at hnot
    rw [hdrop, ← Nat.sub_add_cancel (Nat.le_trans hleast hnot.1), ← List.drop_tail]
    exact List.drop_sublist ..

theorem char?_eq_some {c : Char} {cs rest : List Char} (h : char? c cs = some rest) :
    cs = c :: rest := by
  cases cs with
  | nil => exact nomatch h
  | cons d cs =>
    unfold char? at h
    dsimp only at h
    split at h
    next hd => rw [hd, Option.some.inj h]
    · exact nomatch h

/-- There is a hyphen behind the first character, where the year ends. -/
theorem hyphen_of_strict? {s : String} (h : (strict? s).isSome = true) : '-' ∈ s.toList.tail := by
  obtain ⟨t, ht⟩ := Option.isSome_iff_exists.mp h
  unfold strict? at ht
  obtain ⟨⟨year, cs⟩, hyear, ht⟩ := Option.bind_eq_some_iff.mp ht
  obtain ⟨rest, hrest, -⟩ := Option.bind_eq_some_iff.mp ht
  have hleft := number?_rest (by decide) hyear
  rw [char?_eq_some hrest] at hleft
  exact hleft.subset (List.mem_cons_self ..)

/-- Making something of the number that was read leaves the same characters. -/
theorem map_number?_rest {α : Type} {f : Nat × List Char → α × List Char} {most : Option Nat}
    {cs rest : List Char} {a : α} (h : (number? 1 most cs).map f = some (a, rest))
    (hf : ∀ read, (f read).2 = read.2) : rest.Sublist cs.tail := by
  obtain ⟨⟨n, left⟩, hn, heq⟩ := Option.map_eq_some_iff.mp h
  obtain rfl : rest = left := (congrArg Prod.snd heq).symm.trans (hf _)
  exact number?_rest (by decide) hn

theorem year?_rest {cs rest : List Char} {year : Int} (h : year? cs = some (year, rest)) :
    rest.Sublist cs.tail := by
  have hblank : (cs.dropWhile Text.isBlank).tail.Sublist cs.tail := (List.dropWhile_sublist _).tail
  unfold year? at h
  split at h
  next signed hsigned =>
    rw [hsigned] at hblank
    exact ((map_number?_rest h fun _ => rfl).trans (List.tail_sublist _)).trans hblank
  next signed hsigned =>
    rw [hsigned] at hblank
    exact ((map_number?_rest h fun _ => rfl).trans (List.tail_sublist _)).trans hblank
  next => exact (map_number?_rest h fun _ => rfl).trans hblank

theorem hyphen_of_loose? {s : String} (h : (loose? s).isSome = true) : '-' ∈ s.toList.tail := by
  obtain ⟨t, ht⟩ := Option.isSome_iff_exists.mp h
  unfold loose? looseDate? at ht
  obtain ⟨⟨date, cs⟩, hdate, -⟩ := Option.bind_eq_some_iff.mp ht
  obtain ⟨⟨year, cs⟩, hyear, hdate⟩ := Option.bind_eq_some_iff.mp hdate
  obtain ⟨rest, hrest, -⟩ := Option.bind_eq_some_iff.mp hdate
  have hleft := year?_rest hyear
  rw [char?_eq_some hrest] at hleft
  exact hleft.subset (List.mem_cons_self ..)

end Time

namespace DateCheck

/-- A numeral is made of digits and a point behind its sign, and has a digit there. -/
theorem of_isPlainNumeral {s : String} (h : isPlainNumeral s = true) :
    (∀ c ∈ (Number.signed s.toList).2, c.isDigit = true ∨ c = '.') ∧
      ∃ c ∈ (Number.signed s.toList).2, c.isDigit = true := by
  unfold isPlainNumeral at h
  dsimp only at h
  generalize (Number.signed s.toList).2 = body at h ⊢
  have hparts : body.takeWhile Char.isDigit ++ Number.afterDigits body = body :=
    List.takeWhile_append_dropWhile
  -- the digits end at the point, or at the end of the numeral
  have hwhole : ∀ c ∈ body.takeWhile Char.isDigit, c.isDigit = true :=
    fun c hc => List.mem_takeWhile_imp hc
  generalize body.takeWhile Char.isDigit = whole at h hparts hwhole
  obtain ⟨hsome, hrest⟩ : whole.isEmpty = false ∧
      ∀ c ∈ Number.afterDigits body, c.isDigit = true ∨ c = '.' := by
    split at h
    next hnil =>
      rw [hnil]
      exact ⟨Bool.not_eq_true' _ ▸ h, fun c hc => absurd hc List.not_mem_nil⟩
    next fraction hpoint =>
      rw [Bool.and_eq_true, Bool.and_eq_true, Bool.not_eq_true', List.all_eq_true] at h
      rw [hpoint, List.forall_mem_cons]
      exact ⟨h.1.1, .inr rfl, fun c hc => .inl (h.2 c hc)⟩
    · exact nomatch h
  rw [← hparts]
  refine ⟨List.forall_mem_append.mpr ⟨fun c hc => .inl (hwhole c hc), hrest⟩, ?_⟩
  obtain ⟨c, others, rfl⟩ := List.exists_cons_of_ne_nil (List.isEmpty_eq_false_iff.mp hsome)
  exact ⟨c, List.mem_append_left _ (List.mem_cons_self ..), hwhole c (List.mem_cons_self ..)⟩

theorem signed_rest (cs : List Char) :
    cs.tail ⊆ (Number.signed cs).2 ∧ (Number.signed cs).2 ⊆ cs := by
  unfold Number.signed
  split
  · exact ⟨List.Subset.refl _, List.subset_cons_self ..⟩
  · exact ⟨List.Subset.refl _, List.subset_cons_self ..⟩
  · exact ⟨List.tail_sublist _ |>.subset, List.Subset.refl _⟩

theorem no_hyphen_of_isPlainNumeral {s : String} (h : isPlainNumeral s = true) :
    '-' ∉ s.toList.tail := by
  intro hmem
  rcases (of_isPlainNumeral h).1 '-' ((signed_rest _).1 hmem) with hdigit | hpoint
  · exact absurd hdigit (by decide)
  · exact absurd hpoint (by decide)

/-- A text with a character that is no white space is not left out as empty. -/
theorem trimBlank_isEmpty {s : String} {c : Char} (hc : c ∈ s.toList) (h : Text.isBlank c = false) :
    (Text.trimBlank s.toList).isEmpty = false := by
  rw [List.isEmpty_eq_false_iff, ne_eq, Text.trimBlank_eq_nil_iff]
  exact fun hall => Bool.false_ne_true (h.symm.trans (hall c hc))

/-- The number that a numeral says. -/
def numeralOf? (s : String) : Option Number :=
  if isPlainNumeral s then (Number.Numeral.ofChars? s.toList).map Number.Numeral.toNumber else none

/-- A text stands for a date if it is one, in the strict form or a looser one, or
says a number that does. -/
theorem ofText?_isSome (s : String) : (ofText? none s).isSome = true ↔
    (Time.strict? s).isSome = true ∨ (Time.loose? s).isSome = true ∨
      ∃ n ∈ numeralOf? s, n.isFinite = true ∧ Instant.InRange (Instant.wholeMillis n) := by
  have hhyphen (h : (Time.strict? s).isSome = true ∨ (Time.loose? s).isSome = true) :
      '-' ∈ s.toList.tail :=
    h.elim Time.hyphen_of_strict? Time.hyphen_of_loose?
  have hread : (Time.read? s).isSome = true ↔
      (Time.strict? s).isSome = true ∨ (Time.loose? s).isSome = true := by
    unfold Time.read?
    cases Time.strict? s with
    | none => simp
    | some t => simp
  unfold ofText? numeralOf?
  by_cases hplain : isPlainNumeral s = true
  · -- a numeral has no hyphen where a date text has one
    obtain ⟨c, hc, hdigit⟩ := (of_isPlainNumeral hplain).2
    have hkept := trimBlank_isEmpty ((signed_rest _).2 hc) (Text.isBlank_of_isDigit hdigit)
    have hno := mt hhyphen (no_hyphen_of_isPlainNumeral hplain)
    rw [hkept, if_neg Bool.false_ne_true, if_neg (by decide), if_pos hplain,
      if_pos hplain, ← or_assoc, or_iff_right hno]
    cases Number.Numeral.ofChars? s.toList with
    | none => simp
    | some numeral => simpa [ofNumber?] using Instant.ofNumber?_isSome numeral.toNumber
  · rw [if_neg (show ¬ (none : Option DateFormat) = some .iso by decide), if_neg hplain,
      if_neg hplain, if_pos rfl]
    have hnone : ¬ ∃ n ∈ (none : Option Number), n.isFinite = true ∧
        Instant.InRange (Instant.wholeMillis n) :=
      fun ⟨_, hn, _⟩ => nomatch hn
    rw [or_iff_left hnone, ← hread]
    -- a blank text is no number, and no date text either
    split
    next hempty =>
      refine iff_of_false Bool.false_ne_true fun h => ?_
      have hkept := trimBlank_isEmpty (List.mem_of_mem_tail (hhyphen (hread.mp h)))
        (Text.isBlank_of_printed (by decide) (by decide))
      rw [hempty] at hkept
      exact Bool.false_ne_true hkept.symm
    · exact Iff.rfl

/-! ### Declaring and comparing -/

/-- What an argument must be takes the value for a date. -/
def Accepted (v : Value) : Prop := ArgumentKind.date.rejection? v = none

/-- The rules that compare a date with a limit, and how they compare milliseconds. -/
def comparisons : List (String × (Int → Int → Bool)) :=
  [("min", fun t limit => decide (limit ≤ t)), ("max", fun t limit => decide (t ≤ limit)),
   ("greater", fun t limit => decide (limit < t)), ("less", fun t limit => decide (t < limit))]

instance (v : Value) : Decidable (Accepted v) := inferInstanceAs (Decidable (_ = _))

theorem accepted_number (n : Number) : Accepted (.number n) ↔ n.isFinite = true := by
  unfold Accepted ArgumentKind.rejection?
  dsimp only
  split
  next h => exact iff_of_true rfl h
  next h => exact iff_of_false (fun hnone => nomatch hnone) h

theorem accepted_string (s : String) :
    Accepted (.string s) ↔ s = "now" ∨ (Time.strict? s).isSome = true := by
  have htest : (s == "now" || (Time.strict? s).isSome) = true ↔
      s = "now" ∨ (Time.strict? s).isSome = true := by
    rw [Bool.or_eq_true, beq_iff_eq]
  rw [← htest]
  unfold Accepted ArgumentKind.rejection?
  dsimp only
  split
  next h => exact iff_of_true rfl h
  next h => exact iff_of_false (fun hnone => nomatch hnone) h

theorem rejection_of_not_accepted {v : Value} (h : ¬ Accepted v) :
    ArgumentKind.date.rejection? v = some "must be a date" := by
  cases v with
  | number n => exact if_neg (mt (accepted_number n).mpr h)
  | string s =>
    refine if_neg fun htest => h ((accepted_string s).mpr ?_)
    rw [Bool.or_eq_true, beq_iff_eq] at htest
    exact htest
  | date t => exact absurd rfl h
  | _ => rfl

theorem limit?_string (now : Instant) (s : String) : (limit? now (.string s)).isSome = true ↔
    s = "now" ∨ (ofText? none s).isSome = true := by
  by_cases hnow : s = "now"
  · rw [hnow]
    exact iff_of_true rfl (.inl rfl)
  · rw [limit?.eq_2 now (.string s) fun h => hnow (Value.string.inj h), or_iff_right hnow]
    rfl

/-- Accepted but not read: just the numbers that are out of the range of dates. -/
theorem accepted_unread_iff (now : Instant) (v : Value) : Accepted v ∧ limit? now v = none ↔
    ∃ n, v = .number n ∧ n.isFinite = true ∧ ¬ Instant.InRange (Instant.wholeMillis n) := by
  constructor
  · rintro ⟨haccepted, hnone⟩
    cases v with
    | number n =>
      have hfinite := (accepted_number n).mp haccepted
      refine ⟨n, rfl, hfinite, fun hrange => ?_⟩
      have hread := (Instant.ofNumber?_isSome n).mpr ⟨hfinite, hrange⟩
      rw [show Instant.ofNumber? n = none from hnone] at hread
      exact Bool.false_ne_true hread
    | string s =>
      have hread : (limit? now (.string s)).isSome = true := (limit?_string now s).mpr
        (((accepted_string s).mp haccepted).imp_right fun h => (ofText?_isSome s).mpr (.inl h))
      rw [hnone] at hread
      exact absurd hread Bool.false_ne_true
    | date t => exact nomatch hnone
    | _ => exact nomatch haccepted
  · rintro ⟨n, rfl, hfinite, hrange⟩
    refine ⟨(accepted_number n).mpr hfinite, ?_⟩
    exact Option.not_isSome_iff_eq_none.mp fun h => hrange ((Instant.ofNumber?_isSome n).mp h).2

/-- Read but not accepted: just the looser date texts, and the numerals of dates. -/
theorem read_refused_iff (now : Instant) (v : Value) : (limit? now v).isSome = true ∧ ¬ Accepted v ↔
    ∃ s, v = .string s ∧ s ≠ "now" ∧ Time.strict? s = none ∧ ((Time.loose? s).isSome = true ∨
      ∃ n ∈ numeralOf? s, n.isFinite = true ∧ Instant.InRange (Instant.wholeMillis n)) := by
  constructor
  · rintro ⟨hread, hrefused⟩
    cases v with
    | number n =>
      exact absurd ((accepted_number n).mpr ((Instant.ofNumber?_isSome n).mp hread).1) hrefused
    | string s =>
      rw [accepted_string, not_or] at hrefused
      have htext := (ofText?_isSome s).mp (((limit?_string now s).mp hread).resolve_left hrefused.1)
      exact ⟨s, rfl, hrefused.1, Option.not_isSome_iff_eq_none.mp hrefused.2,
        htext.resolve_left hrefused.2⟩
    | date t => exact absurd rfl hrefused
    | _ => exact nomatch hread
  · rintro ⟨s, rfl, hnow, hstrict, htext⟩
    refine ⟨(limit?_string now s).mpr (.inr ((ofText?_isSome s).mpr (.inr htext))), ?_⟩
    rw [accepted_string, not_or, hstrict]
    exact ⟨hnow, Bool.false_ne_true⟩

/-- The parameter of such a rule. -/
def limitOf : Parameter := { name := "limit", kind := .date, references := true }

section

variable {name : String} {passes : Int → Int → Bool}

theorem rule?_comparison (h : (name, passes) ∈ comparisons) :
    Kind.date.rule? name = some { name, parameters := [limitOf] } := by
  simp only [comparisons, List.mem_cons, Prod.mk.injEq, List.not_mem_nil, or_false] at h
  rcases h with ⟨rfl, -⟩ | ⟨rfl, -⟩ | ⟨rfl, -⟩ | ⟨rfl, -⟩ <;> rfl

theorem rule_comparison (h : (name, passes) ∈ comparisons) (site : Site)
    (given : Given) (value : Value) :
    rule site name given value = compare site ("date." ++ name) given value passes := by
  simp only [comparisons, List.mem_cons, Prod.mk.injEq, List.not_mem_nil, or_false] at h
  rcases h with ⟨rfl, rfl⟩ | ⟨rfl, rfl⟩ | ⟨rfl, rfl⟩ | ⟨rfl, rfl⟩ <;> rfl

/-- A date schema takes the limits that are accepted. -/
theorem withRule_limit (h : (name, passes) ∈ comparisons) {s : Schema}
    (hkind : s.kind = .date) (v : Value) :
    (∃ t, s.withRule name [.literal v] = .ok t) ↔ Accepted v := by
  have hspec : s.kind.rule? name = some { name, parameters := [limitOf] } :=
    hkind ▸ rule?_comparison h
  have hcheck : RuleSpec.check { name, parameters := [limitOf] }
      [(.literal v : Argument Schema)] = .ok () ↔
      Accepted v := RuleSpec.check_literal (p := limitOf) rfl rfl v
  constructor
  · rintro ⟨t, ht⟩
    exact hcheck.mp ((Schema.withRule_ok hspec).mp ht).1
  · intro haccepted
    exact ⟨_, (Schema.withRule_ok hspec).mpr ⟨hcheck.mpr haccepted, rfl⟩⟩

/-- The value of the argument is compared. -/
theorem applyRule_limit (h : (name, passes) ∈ comparisons) {site : Site}
    (hkind : site.node.kind = .date) (check : Check) (value : Value) (arg : Argument Schema) :
    site.applyRule check value ⟨name, [arg]⟩ =
      pure (site.resolveArgument value limitOf arg >>= fun v =>
      compare site ("date." ++ name) ⟨[("limit", v)], [("limit", arg)]⟩ value passes) := by
  obtain ⟨format, hform⟩ : ∃ format, site.node.form = .date format := by
    unfold Node.kind at hkind
    cases hform : site.node.form with
    | date format => exact ⟨format, rfl⟩
    | _ =>
      rw [hform] at hkind
      exact nomatch hkind
  have hcustom : name ≠ "custom" := by
    rintro rfl
    simp [comparisons] at h
  rw [Site.applyRule_one (hkind ▸ rule?_comparison h) rfl hcustom]
  cases site.resolveArgument value limitOf arg with
  | error report => rfl
  | ok v =>
    unfold Site.typeRule
    rw [hform]
    dsimp only
    rw [rule_comparison h]
    rfl

end

/-- A limit is accepted but not read just if it is a number out of the range of dates, and read but
not accepted just if it is one of the looser date texts or a numeral. A date schema is given the
limits that are accepted, and a reference is judged as what it stands for, or reported if that is
not accepted. A limit that is not read makes every value fail; with one that is read, dates are
compared to the millisecond. -/
theorem limits_judged (v : Value) :
    (∀ now, Accepted v ∧ limit? now v = none ↔
      ∃ n, v = .number n ∧ n.isFinite = true ∧ ¬ Instant.InRange (Instant.wholeMillis n)) ∧
    (∀ now, (limit? now v).isSome = true ∧ ¬ Accepted v ↔
      ∃ s, v = .string s ∧ s ≠ "now" ∧ Time.strict? s = none ∧ ((Time.loose? s).isSome = true ∨
        ∃ n ∈ numeralOf? s, n.isFinite = true ∧ Instant.InRange (Instant.wholeMillis n))) ∧
    ∀ name passes, (name, passes) ∈ comparisons →
      (∀ s : Schema, s.kind = .date → ((∃ t, s.withRule name [.literal v] = .ok t) ↔ Accepted v)) ∧
      ∀ (site : Site) (check : Check) (value : Value), site.node.kind = .date →
        (∀ r : Reference, r.resolve value site.scope = v →
          site.applyRule check value ⟨name, [.reference r]⟩ =
          if Accepted v then site.applyRule check value ⟨name, [.literal v]⟩
          else pure (.error (site.report "any.ref" value
            [("ref", .string r.display), ("arg", .string "limit"),
              ("reason", .string "must be a date")]))) ∧
        (limit? site.env.now v = none → site.applyRule check value ⟨name, [.literal v]⟩ =
          pure (.error (site.limitReport ("date." ++ name) value v))) ∧
        ∀ limit t, limit? site.env.now v = some limit → value = .date t →
          site.applyRule check value ⟨name, [.literal v]⟩ =
            pure (if passes t.millis limit.millis then .ok (.date t)
              else .error (site.limitReport ("date." ++ name) (.date t) (.date limit))) := by
  refine ⟨fun now => accepted_unread_iff now v, fun now => read_refused_iff now v, ?_⟩
  intro name passes h
  refine ⟨fun s hkind => withRule_limit h hkind v, ?_⟩
  intro site check value hkind
  refine ⟨?_, ?_, ?_⟩
  · intro r hr
    -- a reference is judged like a limit that is declared, once it is resolved
    rw [applyRule_limit h hkind, applyRule_limit h hkind]
    unfold Site.resolveArgument
    dsimp only
    rw [if_neg (by decide), hr]
    by_cases haccepted : Accepted v
    · rw [if_pos haccepted, show limitOf.kind.rejection? v = none from haccepted]
      rfl
    · rw [if_neg haccepted, show limitOf.kind.rejection? v = _ from
        rejection_of_not_accepted haccepted]
      rfl
  · intro hnone
    -- what the limit stands for is asked again at each check
    rw [applyRule_limit h hkind]
    show pure
      (compare site ("date." ++ name) ⟨[("limit", v)], [("limit", .literal v)]⟩ value passes) = _
    unfold compare
    rw [show Given.value ⟨[("limit", v)], [("limit", .literal v)]⟩ "limit" = v from rfl, hnone]
  · rintro limit t hlimit rfl
    rw [applyRule_limit h hkind]
    show pure (compare site ("date." ++ name) ⟨[("limit", v)], [("limit", .literal v)]⟩
      (.date t) passes) = _
    unfold compare
    rw [show Given.value ⟨[("limit", v)], [("limit", .literal v)]⟩ "limit" = v from rfl, hlimit]
    rfl

/-- A number of milliseconds long after the last date. -/
def tooLate : Number := Number.ofNat 100000000000000000000

/-- A date schema's site, where the context is the limit. -/
def siteOf (limit : Value) : Site := ⟨{}, Schema.date, .root, { context := limit }, .undefined⟩

/-- The limit that the context is. -/
def contextLimit : Argument Schema := .reference { key := "$", path := [], target := .context }

/-- A number that may be declared but is no date, a day and a numeral that may not be declared but
are, and the start of 1970 compared with each as what a reference finds. -/
theorem limits_judged_apart :
    (Accepted (.number tooLate) ∧ limit? ⟨0, 0⟩ (.number tooLate) = none) ∧
    (∀ s ∈ ["2020-01-01", "1577836800000"], (limit? ⟨0, 0⟩ (.string s)).isSome = true ∧
      ¬ Accepted (.string s)) ∧
    (∃ t, Schema.date.withRule "min" [.literal (.number tooLate)] = .ok t) ∧
    (¬ ∃ t, Schema.date.withRule "min" [.literal (.string "2020-01-01")] = .ok t) ∧
    (∀ check, (siteOf (.number tooLate)).applyRule check (.date ⟨0, 0⟩) ⟨"min", [contextLimit]⟩ =
      pure (.error
        ((siteOf (.number tooLate)).limitReport "date.min" (.date ⟨0, 0⟩) (.number tooLate)))) ∧
    ∀ check, (siteOf (.string "2020-01-01")).applyRule check (.date ⟨0, 0⟩)
      ⟨"min", [contextLimit]⟩ =
      pure (.error ((siteOf (.string "2020-01-01")).report "any.ref" (.date ⟨0, 0⟩)
        [("ref", .string "ref:$"), ("arg", .string "limit"),
          ("reason", .string "must be a date")])) := by
  obtain ⟨hunread, -, hlate⟩ := limits_judged (.number tooLate)
  obtain ⟨-, hday, hlimits⟩ := limits_judged (.string "2020-01-01")
  obtain ⟨-, hnumeral, -⟩ := limits_judged (.string "1577836800000")
  have hlate := hlate "min" _ (List.mem_cons_self ..)
  have hlimits := hlimits "min" _ (List.mem_cons_self ..)
  have hout : Accepted (.number tooLate) ∧ limit? ⟨0, 0⟩ (.number tooLate) = none :=
    (hunread _).mpr ⟨tooLate, rfl, by decide +kernel, by unfold Instant.InRange; decide +kernel⟩
  have hdayRead : (limit? ⟨0, 0⟩ (.string "2020-01-01")).isSome = true ∧
      ¬ Accepted (.string "2020-01-01") :=
    (hday _).mpr ⟨"2020-01-01", rfl, by decide, by decide +kernel, .inl (by decide +kernel)⟩
  have hnumeralRead : (limit? ⟨0, 0⟩ (.string "1577836800000")).isSome = true ∧
      ¬ Accepted (.string "1577836800000") := by
    refine (hnumeral _).mpr ⟨"1577836800000", rfl, by decide, by decide +kernel, .inr ?_⟩
    refine ⟨Number.ofNat 1577836800000, by decide +kernel, by decide +kernel, ?_⟩
    unfold Instant.InRange
    decide +kernel
  refine ⟨hout, ?_, (hlate.1 _ rfl).mpr hout.1, mt (hlimits.1 _ rfl).mp hdayRead.2, ?_, ?_⟩
  · intro s hs
    rcases List.mem_cons.mp hs with rfl | hs
    · exact hdayRead
    · rw [List.mem_singleton.mp hs]
      exact hnumeralRead
  · intro check
    obtain ⟨href, hnone, -⟩ := hlate.2 (siteOf (.number tooLate)) check (.date ⟨0, 0⟩) rfl
    rw [contextLimit, href _ rfl, if_pos hout.1]
    exact hnone hout.2
  · intro check
    obtain ⟨href, -, -⟩ := hlimits.2 (siteOf (.string "2020-01-01")) check (.date ⟨0, 0⟩) rfl
    rw [contextLimit, href _ rfl, if_neg hdayRead.2]
    rfl

end DateCheck

end Conform
