import Replay.Options
import Replay.Proofs.Outcome

namespace Replay

/-- The option that an argument is taken for, if it is for one. -/
def ArgumentMark.option? : ArgumentMark → Option OptionSpec
  | known o _ => some o
  | letters o _ => some o
  | _ => none

namespace Arguments

variable {options : List OptionSpec} {table : ArgumentTable} {t : Text} {o : OptionSpec}
  {m : ArgumentMark} {r u : Reading}

theorem mem_of_mem_spellings {s : Text × OptionSpec} (h : s ∈ spellings options) :
    s.2 ∈ options := by
  obtain ⟨other, hother, hs⟩ := List.mem_flatMap.mp h
  obtain ⟨name, -, rfl⟩ := List.mem_map.mp hs
  exact hother

theorem mem_of_find? (h : find? options t = some o) : o ∈ options := by
  obtain ⟨s, hs, hfound⟩ := List.exists_of_findSome?_eq_some h
  split at hfound
  next =>
    obtain rfl := Option.some.inj hfound
    exact mem_of_mem_spellings hs
  next => cases hfound

theorem mem_of_mem_candidates {name : Text} (h : (name, m) ∈ candidates options t)
    (ho : m.option? = some o) : o ∈ options := by
  -- each candidate is for the option of one of the spellings
  obtain ⟨s, hs, hmark⟩ : ∃ s ∈ spellings options, m.option? = some s.2 := by
    unfold candidates at h
    split at h
    next =>
      cases hsplit : splitValue t with
      | mk start value =>
        rw [hsplit] at h
        obtain ⟨s, hs, hfound⟩ := List.mem_filterMap.mp h
        split at hfound
        next =>
          obtain ⟨-, rfl⟩ := Prod.mk.inj (Option.some.inj hfound)
          exact ⟨s, hs, rfl⟩
        next => cases hfound
    next =>
      obtain ⟨s, hs, hfound⟩ := List.mem_filterMap.mp h
      split at hfound
      next =>
        obtain ⟨-, rfl⟩ := Prod.mk.inj (Option.some.inj hfound)
        exact ⟨s, hs, rfl⟩
      next =>
        split at hfound
        next =>
          obtain ⟨-, rfl⟩ := Prod.mk.inj (Option.some.inj hfound)
          exact ⟨s, hs, rfl⟩
        next => cases hfound
  obtain rfl := Option.some.inj (hmark.symm.trans ho)
  exact mem_of_mem_spellings hs

theorem mem_of_mark (h : mark options t = .ok m) (ho : m.option? = some o) : o ∈ options := by
  revert h
  fun_cases mark options t with
  | case2 _ other hfind =>
    intro h
    obtain rfl := Except.ok.inj h
    obtain rfl := Option.some.inj ho
    exact mem_of_find? hfind
  | case4 _ _ _ start value other hfind =>
    intro h
    obtain rfl := Except.ok.inj h
    have hother : some other = some o := by
      rw [← ho]
      split <;> rfl
    obtain rfl := Option.some.inj hother
    exact mem_of_find? hfind
  | case5 _ _ _ start value _ name found hcandidates =>
    intro h
    obtain rfl := Except.ok.inj h
    exact mem_of_mem_candidates (hcandidates ▸ List.mem_cons_self) ho
  | case6 =>
    intro h
    obtain rfl := Except.ok.inj h
    split at ho <;> cases ho
  | case1 | case3 =>
    intro h
    obtain rfl := Except.ok.inj h
    cases ho
  | case7 =>
    intro h
    cases h

theorem mem_of_marks {arguments : List Text} {marked : List (Text × ArgumentMark)}
    (h : marks options arguments = .ok marked) :
    ∀ x ∈ marked, ∀ o, x.2.option? = some o → o ∈ options := by
  induction arguments generalizing marked with
  | nil =>
    cases h
    simp
  | cons t rest ih =>
    rw [marks] at h
    split at h
    next =>
      obtain rfl := Except.ok.inj h
      intro x hx o ho
      rcases List.mem_cons.mp hx with rfl | hx
      · cases ho
      · obtain ⟨word, -, rfl⟩ := List.mem_map.mp hx
        cases ho
    next =>
      obtain ⟨first, hfirst, h⟩ := bind_eq_ok_iff.mp h
      obtain ⟨others, hothers, h⟩ := bind_eq_ok_iff.mp h
      obtain rfl := Except.ok.inj h
      intro x hx o ho
      rcases List.mem_cons.mp hx with rfl | hx
      · exact mem_of_mark hfirst ho
      · exact ih hothers x hx o ho

/-- All options that were given are of the table, and those that exclude others are all one. -/
structure Reading.IsExclusive (table : ArgumentTable) (r : Reading) : Prop where
  known : ∀ g ∈ r.given, g.1 ∈ table.options
  sole : ∀ g ∈ r.given, ∀ g' ∈ r.given, g.1.exclusive = true → g'.1.exclusive = true → g.1 = g'.1

theorem Reading.isExclusive_empty : empty.IsExclusive table := by
  constructor <;> simp [empty]

/-- The condition is about nothing but the options. -/
theorem Reading.IsExclusive.congr (h : r.IsExclusive table) (hgiven : u.given = r.given) :
    u.IsExclusive table := by
  constructor
  · rw [hgiven]
    exact h.known
  · rw [hgiven]
    exact h.sole

theorem isExclusive_take {value : OptionValue} (hr : r.IsExclusive table)
    (ho : o ∈ table.options) (h : take table r o value = .ok u) : u.IsExclusive table := by
  -- what was taken before and excludes others is the same option
  have hsame : o.exclusive = true → ∀ g ∈ r.given, g.1.exclusive = true → g.1 = o := by
    intro hexclusive g hg hgiven
    unfold take at h
    dsimp only at h
    rw [if_pos hexclusive] at h
    split at h
    next => cases h
    next hrival =>
      have hnot := List.find?_eq_none.mp hrival g.1 (hr.known g hg)
      by_contra hne
      apply hnot
      have hany : r.given.any (fun g' => g'.1 = g.1) = true :=
        List.any_eq_true.mpr ⟨g, hg, by simp⟩
      rw [hgiven, hany, bne_iff_ne.mpr hne]
      rfl
  have hgiven : u.given = r.given ++ [(o, value)] := by
    unfold take at h
    dsimp only at h
    split at h
    next => cases h
    next =>
      split at h
      next => cases h
      next =>
        obtain rfl := Except.ok.inj h
        rfl
  constructor
  · intro g hg
    rw [hgiven] at hg
    rcases List.mem_append.mp hg with hbefore | hnow
    · exact hr.known g hbefore
    · obtain rfl := List.mem_singleton.mp hnow
      exact ho
  · intro g hg g' hg' hexclusive hexclusive'
    rw [hgiven] at hg hg'
    rcases List.mem_append.mp hg with hbefore | hnow
    · rcases List.mem_append.mp hg' with hbefore' | hnow'
      · exact hr.sole g hbefore g' hbefore' hexclusive hexclusive'
      · obtain rfl := List.mem_singleton.mp hnow'
        exact hsame hexclusive' g hbefore hexclusive
    · obtain rfl := List.mem_singleton.mp hnow
      rcases List.mem_append.mp hg' with hbefore' | hnow'
      · exact (hsame hexclusive g' hbefore' hexclusive').symm
      · obtain rfl := List.mem_singleton.mp hnow'
        rfl

theorem isExclusive_of_take {value : OptionValue} {next : Reading → Except EarlyExit Reading}
    (hr : r.IsExclusive table) (ho : o ∈ table.options)
    (h : (take table r o value >>= next) = .ok u)
    (hnext : ∀ r', r'.IsExclusive table → next r' = .ok u → u.IsExclusive table) :
    u.IsExclusive table := by
  obtain ⟨r', htake, h⟩ := bind_eq_ok_iff.mp h
  exact hnext r' (isExclusive_take hr ho htake) h

theorem given_of_takePositional {p : PositionalSpec} {value : Text}
    (h : takePositional p r value = .ok u) : u.given = r.given := by
  unfold takePositional at h
  split at h
  next =>
    obtain rfl := Except.ok.inj h
    rfl
  next => cases h

/-- The condition is kept by each argument, whatever it is taken for. -/
theorem isExclusive_consume {marked : List (Text × ArgumentMark)} (hr : r.IsExclusive table)
    (hmarked : ∀ x ∈ marked, ∀ o, x.2.option? = some o → o ∈ table.options)
    (h : consume table r marked = .ok u) : u.IsExclusive table := by
  fun_induction consume table r marked with
  | case1 r =>
    obtain rfl := Except.ok.inj h
    exact hr
  | case2 r t rest ih =>
    exact ih (hr.congr rfl) (fun x hx => hmarked x (List.mem_cons_of_mem _ hx)) h
  | case3 r t p value rest hwanted ih =>
    obtain ⟨r', htake, h⟩ := bind_eq_ok_iff.mp h
    exact ih r' (hr.congr (given_of_takePositional htake))
      (fun x hx => hmarked x (List.mem_cons_of_mem _ (List.mem_cons_of_mem _ hx))) h
  | case4 r t rest _ ih =>
    exact ih (hr.congr rfl) (fun x hx => hmarked x (List.mem_cons_of_mem _ hx)) h
  | case5 r t rest p hwanted ih =>
    obtain ⟨r', htake, h⟩ := bind_eq_ok_iff.mp h
    have hr' := hr.congr (given_of_takePositional htake)
    have hrest := fun x hx => hmarked x (List.mem_cons_of_mem _ hx)
    have hnext := ih r'
    split at h
    next => exact hnext hr' (fun x hx => hrest x (List.mem_cons_of_mem _ hx)) h
    next hword =>
      split at hnext
      next => exact absurd rfl (hword _ _)
      next => exact hnext hr' hrest h
  | case6 r t rest _ ih =>
    exact ih (hr.congr rfl) (fun x hx => hmarked x (List.mem_cons_of_mem _ hx)) h
  | case7 r t o letters rest _ ih =>
    exact isExclusive_of_take hr (hmarked _ List.mem_cons_self o rfl) h
      fun r' hr' => ih r' hr' fun x hx => hmarked x (List.mem_cons_of_mem _ hx)
  | case9 r t o rest value _ ih =>
    exact isExclusive_of_take hr (hmarked _ List.mem_cons_self o rfl) h
      fun r' hr' => ih r' hr' fun x hx => hmarked x (List.mem_cons_of_mem _ hx)
  | case10 r t o _ value rest ih =>
    exact isExclusive_of_take hr (hmarked _ List.mem_cons_self o rfl) h fun r' hr' =>
      ih r' hr' fun x hx => hmarked x (List.mem_cons_of_mem _ (List.mem_cons_of_mem _ hx))
  | case13 r t o rest _ ih =>
    exact isExclusive_of_take hr (hmarked _ List.mem_cons_self o rfl) h
      fun r' hr' => ih r' hr' fun x hx => hmarked x (List.mem_cons_of_mem _ hx)
  | case8 | case11 | case12 => cases h

/-- Of the options that exclude each other at most one is given. -/
theorem isExclusive_read {arguments : List Text} (h : read table arguments = .ok r) :
    r.IsExclusive table := by
  obtain ⟨marked, hmarked, h⟩ := bind_eq_ok_iff.mp h
  obtain ⟨r', hconsume, h⟩ := bind_eq_ok_iff.mp h
  have hmarks := mem_of_marks (mapError_eq_ok_iff.mp hmarked)
  have hr' := isExclusive_consume Reading.isExclusive_empty hmarks hconsume
  split at h
  next => cases h
  next =>
    split at h
    next =>
      obtain rfl := Except.ok.inj h
      exact hr'
    next => cases h

/-- An option that was given. -/
def Reading.Gives (r : Reading) (o : OptionSpec) : Prop := ∃ g ∈ r.given, g.1 = o

theorem Reading.has_iff : r.has o = true ↔ r.Gives o := by
  rw [has, List.any_eq_true]
  simp only [decide_eq_true_eq, Gives]

theorem Reading.gives_of_value (h : r.value o ≠ .absent) : r.Gives o := by
  cases hfind : r.given.reverse.find? fun g => g.1 = o with
  | none =>
    rw [value, hfind] at h
    exact absurd rfl h
  | some g =>
    have hmem := List.mem_reverse.mp (List.mem_of_find?_eq_some hfind)
    have hsome := List.find?_some hfind
    exact ⟨g, hmem, of_decide_eq_true hsome⟩

theorem Reading.IsExclusive.not_gives {other : OptionSpec} (h : r.IsExclusive table)
    (ho : r.Gives o) (hexclusive : o.exclusive = true) (hother : other.exclusive = true)
    (hne : o ≠ other) : ¬ r.Gives other := by
  rintro ⟨g', hg', rfl⟩
  obtain ⟨g, hg, rfl⟩ := ho
  exact hne (h.sole g hg g' hg' hexclusive hother)

end Arguments

/-- Options that are read name at most one source of a script. -/
theorem Options.sole_of_read {arguments : List Text} {o : Options}
    (h : read arguments = .ok o) :
    (o.smoke = true → o.script = .absent ∧ o.json = .absent ∧ o.stdin = false) ∧
      (o.script ≠ .absent → o.json = .absent ∧ o.stdin = false) ∧
      (o.json ≠ .absent → o.stdin = false) := by
  obtain ⟨r, hr, h⟩ := bind_eq_ok_iff.mp h
  obtain rfl := Except.ok.inj h
  have hexclusive := Arguments.isExclusive_read hr
  have hvalue : ∀ {other : OptionSpec}, ¬ r.Gives other → r.value other = .absent :=
    fun hnot => not_not.mp (mt Arguments.Reading.gives_of_value hnot)
  have hflag : ∀ {other : OptionSpec}, ¬ r.Gives other → r.has other = false :=
    fun hnot => Bool.eq_false_iff.mpr (mt Arguments.Reading.has_iff.mp hnot)
  refine ⟨fun hsmoke => ?_, fun hscript => ?_, fun hjson => ?_⟩
  · have hgiven := Arguments.Reading.has_iff.mp hsmoke
    exact ⟨hvalue (hexclusive.not_gives hgiven rfl rfl (by decide)),
      hvalue (hexclusive.not_gives hgiven rfl rfl (by decide)),
      hflag (hexclusive.not_gives hgiven rfl rfl (by decide))⟩
  · have hgiven := Arguments.Reading.gives_of_value hscript
    exact ⟨hvalue (hexclusive.not_gives hgiven rfl rfl (by decide)),
      hflag (hexclusive.not_gives hgiven rfl rfl (by decide))⟩
  · have hgiven := Arguments.Reading.gives_of_value hjson
    exact hflag (hexclusive.not_gives hgiven rfl rfl (by decide))

end Replay
