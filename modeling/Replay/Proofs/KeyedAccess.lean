import Mathlib.Data.List.Induction
import Replay.Access

namespace Replay

namespace ServiceSettings

theorem distinct_concat (keys : List Text) (k : Text) :
    distinct (keys ++ [k]) =
      if k ∈ distinct keys then distinct keys else distinct keys ++ [k] := by
  simp only [distinct, List.foldl_append, List.foldl_cons, List.foldl_nil, List.contains_iff_mem]

/-- Of equal texts the first one stays where it is. -/
theorem distinct_eq_eraseDups (keys : List Text) : distinct keys = keys.eraseDups := by
  induction keys using List.reverseRecOn with
  | nil => rfl
  | append_singleton keys k ih =>
    rw [distinct_concat, ih, List.eraseDups_append]
    by_cases h : k ∈ keys <;> simp [List.removeAll, List.eraseDups_cons, h]

theorem nodup_distinct (keys : List Text) : (distinct keys).Nodup := by
  induction keys using List.reverseRecOn with
  | nil => exact List.nodup_nil
  | append_singleton keys k ih =>
    rw [distinct_concat]
    split
    next => exact ih
    next hnew =>
      refine List.nodup_append.mpr ⟨ih, by simp, fun k' hk' d hd => ?_⟩
      obtain rfl := List.mem_singleton.mp hd
      exact fun heq => hnew (heq ▸ hk')

theorem mem_trimAll_iff {texts : List Text} {k : Text} :
    k ∈ trimAll texts ↔ k ≠ [] ∧ ∃ t ∈ texts, t.trim = k := by
  simp [trimAll, and_comm]

/-- Keys come from texts that are trimmed, with blank and repeated ones left out. -/
theorem exists_of_readKeys {depth : Nat} {t : Option Text} {keys : List Text}
    (h : readKeys depth t = .ok keys) : ∃ texts, keys = distinct (trimAll texts) := by
  rw [readKeys] at h
  split at h
  · split at h
    next => exact ⟨_, (Except.ok.inj h).symm⟩
    next => exact ⟨[], (Except.ok.inj h).symm⟩
    next =>
      split at h
      · exact ⟨[], (Except.ok.inj h).symm⟩
      · cases h
  · exact ⟨_, (Except.ok.inj h).symm⟩

theorem mem_trimAll_of_distinct {texts : List Text} {k : Text} (h : k ∈ distinct (trimAll texts)) :
    k ≠ [] ∧ ∃ t ∈ texts, t.trim = k := by
  rw [distinct_eq_eraseDups, List.mem_eraseDups] at h
  exact mem_trimAll_iff.mp h

theorem ne_nil_of_readKeys {depth : Nat} {t : Option Text} {keys : List Text}
    (h : readKeys depth t = .ok keys) : ∀ k ∈ keys, k ≠ [] := by
  obtain ⟨texts, rfl⟩ := exists_of_readKeys h
  exact fun k hk => (mem_trimAll_of_distinct hk).1

end ServiceSettings

namespace AccessRules

/-- The rules go by all keys that were read. -/
theorem keys_ofSettings {settings : ServiceSettings} {depth : Nat} {t : Option Text}
    (h : ServiceSettings.readKeys depth t = .ok settings.apiKeys) :
    (ofSettings settings).keys = settings.apiKeys := by
  refine List.filter_eq_self.mpr fun k hk => ?_
  simpa using ServiceSettings.ne_nil_of_readKeys h k hk

end AccessRules

namespace Access

variable {σ : Type} {given : Text} {keys : List Text}

/-- Whether all texts can be compared that are, until the key is found. -/
def isSearchable (given : Text) (keys : List Text) : Bool :=
  given.all CodePoint.isAscii &&
    (keys.takeWhile fun k => k != given).all fun k => k.all CodePoint.isAscii

theorem isSearchable_of_isAscii (hgiven : given.all CodePoint.isAscii = true)
    (hkeys : ∀ k ∈ keys, k.all CodePoint.isAscii = true) : isSearchable given keys = true := by
  rw [isSearchable, hgiven, Bool.true_and, List.all_eq_true]
  exact fun k hk => hkeys k ((List.takeWhile_sublist _).subset hk)

/-- The search finds the key, or it passes all keys, or it ends at one that cannot be compared. -/
theorem isKnown_eq (hgiven : given.all CodePoint.isAscii = true) (keys : List Text) :
    isKnown given keys =
      if isSearchable given keys then .ok (decide (given ∈ keys)) else .error .keyNotAscii := by
  induction keys with
  | nil => simp [isKnown, isSearchable, hgiven]
  | cons key rest ih =>
    rw [isKnown]
    by_cases hsame : given = key
    · subst hsame
      simp [sameKey, isSearchable, hgiven, bind, Except.bind, pure, Except.pure]
    · cases hkey : key.all CodePoint.isAscii with
      | true =>
        have hsearch : isSearchable given (key :: rest) = isSearchable given rest := by
          simp [isSearchable, Ne.symm hsame, hkey]
        have hstep : sameKey given key = .ok false := by
          simp [sameKey, hgiven, hkey, hsame]
        rw [hstep, hsearch]
        simpa [bind, Except.bind, hsame] using ih
      | false =>
        have hsearch : isSearchable given (key :: rest) = false := by
          simp [isSearchable, Ne.symm hsame, hkey]
        have hstep : sameKey given key = .error .keyNotAscii := by
          simp [sameKey, hkey]
        rw [hstep, hsearch]
        rfl

theorem isKnown_of_not_isAscii (hgiven : given.all CodePoint.isAscii = false) (hkeys : keys ≠ []) :
    isKnown given keys = .error .keyNotAscii := by
  obtain ⟨key, rest, rfl⟩ := List.exists_cons_of_ne_nil hkeys
  have hstep : sameKey given key = .error .keyNotAscii := by simp [sameKey, hgiven]
  rw [isKnown, hstep]
  rfl

theorem admits_eq (hnil : ∀ k ∈ keys, k ≠ []) (r : Request) :
    admits keys r =
      if givenKey r ∈ keys ∧ isSearchable (givenKey r) keys = true then .ok true
      else if givenKey r = [] ∨ keys = [] ∨ isSearchable (givenKey r) keys = true then .ok false
      else .error .keyNotAscii := by
  by_cases hmissing : keys = [] ∨ givenKey r = []
  · have hnot : givenKey r ∉ keys := by
      intro hin
      rcases hmissing with rfl | hnone
      · cases hin
      · exact hnil _ hin hnone
    have hfirst : (keys.isEmpty || (givenKey r).isEmpty) = true := by simpa using hmissing
    rw [admits, if_pos hfirst, if_neg fun h => hnot h.1, if_pos (hmissing.elim (.inr ∘ .inl) .inl)]
  · obtain ⟨hkeys, hgiven⟩ := not_or.mp hmissing
    have hfirst : ¬(keys.isEmpty || (givenKey r).isEmpty) = true := by simpa using hmissing
    rw [admits, if_neg hfirst]
    cases hsearch : isSearchable (givenKey r) keys with
    | true =>
      have hascii : (givenKey r).all CodePoint.isAscii = true := (Bool.and_eq_true_iff.mp hsearch).1
      rw [isKnown_eq hascii, hsearch]
      by_cases hin : givenKey r ∈ keys <;> simp [hin]
    | false =>
      have hfails : isKnown (givenKey r) keys = .error .keyNotAscii := by
        cases hascii : (givenKey r).all CodePoint.isAscii with
        | true =>
          rw [isKnown_eq hascii, hsearch]
          rfl
        | false => exact isKnown_of_not_isAscii hascii hkeys
      rw [hfails]
      simp [hkeys, hgiven]

/-- In whatever order the configured keys are searched, the view gets the request only if it
carries one of them, and as long as all is plain ASCII exactly then; all other callers are
unauthorized. Only a search that meets a text that is not ASCII fails. -/
theorem keyed_configured {settings : ServiceSettings} {depth : Nat} {t : Option Text}
    (hread : ServiceSettings.readKeys depth t = .ok settings.apiKeys) {rules : AccessRules}
    (horder : rules.keys.Perm (AccessRules.ofSettings settings).keys) (view : View σ)
    (call : Call) :
    let given := givenKey call.request
    let configured := settings.apiKeys
    keyed rules view call =
        (if given ∈ configured ∧ isSearchable given rules.keys = true then
          view { call with key := some given }
        else if given = [] ∨ configured = [] ∨ isSearchable given rules.keys = true then
          pure (.done unauthorized)
        else Action.fail .keyNotAscii) ∧
      (given.all CodePoint.isAscii = true → (∀ k ∈ configured, k.all CodePoint.isAscii = true) →
        isSearchable given rules.keys = true) ∧
      unauthorized.status = 401 ∧
      Headers.get? unauthorized.headers "WWW-Authenticate" = some ("ApiKey" : Text) := by
  intro given configured
  rw [AccessRules.keys_ofSettings hread] at horder
  have hmem (k : Text) : k ∈ rules.keys ↔ k ∈ configured := horder.mem_iff
  have hempty : rules.keys = [] ↔ configured = [] := by
    rw [← List.length_eq_zero_iff, ← List.length_eq_zero_iff, horder.length_eq]
  have hnil : ∀ k ∈ rules.keys, k ≠ [] := fun k hk =>
    ServiceSettings.ne_nil_of_readKeys hread k ((hmem k).mp hk)
  have hadmits := admits_eq hnil call.request
  simp only [hmem, hempty] at hadmits
  refine ⟨?_, fun hgiven hkeys => ?_, rfl, by decide +kernel⟩
  · rw [keyed, hadmits]
    split
    · rfl
    · split <;> rfl
  · exact isSearchable_of_isAscii hgiven fun k hk => hkeys k ((hmem k).mp hk)

/-- Where `secret` is the only key, a caller that carries it is served, and one that carries a
letter with an accent is not even told that it is unauthorized. -/
theorem keyed_configured_of_accent :
    let view : View Unit := fun call => pure (.value ((call.key.map Json.text).getD .null))
    let settings : ServiceSettings := ⟨.ofLocation [], 0, 20, 60, ["secret"]⟩
    let call (key : Text) : Call :=
      ⟨⟨"POST", ⟨"http", "localhost", "/", [], "/"⟩, [(keyHeader, key)], none, []⟩, "headless",
        .int 0, none⟩
    let served (key : Text) := keyed (AccessRules.ofSettings settings) view (call key)
    served "secret" = pure (.value (.text "secret")) ∧
      served [CodePoint.ofNat 0xE9] = Action.fail .keyNotAscii := by
  intro view settings call served
  have hread : ServiceSettings.readKeys 1 (some "secret") = .ok settings.apiKeys := rfl
  have hserved (key : Text) := (keyed_configured hread (.refl _) view (call key)).1
  refine ⟨(hserved "secret").trans (if_pos (by decide +kernel)), ?_⟩
  refine (hserved [CodePoint.ofNat 0xE9]).trans ?_
  rw [if_neg (by decide +kernel), if_neg (by decide +kernel)]

end Access

end Replay
