import Mathlib.Data.List.Induction
import CommandContract.Members

set_option autoImplicit false

/-!
# Laws of named members

What a lookup finds after a write or a removal, which names stand in the list and in what order,
and what is left of the members under other names. `Members.get?_ofPairs` says that the last of
several pairs with one name gives its value.
-/
namespace CommandContract.Members

variable {α : Type}

/-! ## Names -/

theorem keys_cons (key : String) (v : α) (ms : Members α) :
    keys ((key, v) :: ms) = key :: keys ms := rfl

theorem get?_eq_none_iff (key : String) (ms : Members α) : get? key ms = none ↔ key ∉ keys ms := by
  induction ms with
  | nil => simp [get?, keys]
  | cons head rest ih =>
    obtain ⟨k, v⟩ := head
    rw [keys_cons, List.mem_cons, not_or, ← ih]
    by_cases h : k = key
    · simp [get?, h]
    · simp [get?, h, Ne.symm h]

theorem mem_of_get? {key : String} {v : α} {ms : Members α} (h : get? key ms = some v) :
    (key, v) ∈ ms := by
  induction ms with
  | nil => simp at h
  | cons head rest ih =>
    obtain ⟨k, w⟩ := head
    by_cases hk : k = key
    · have hw : w = v := by simpa [get?, hk] using h
      subst hk hw
      exact List.mem_cons_self
    · have ht : get? key rest = some v := by simpa [get?, hk] using h
      exact List.mem_cons_of_mem _ (ih ht)

/-- A name that stands once has one value. -/
theorem eq_of_mem {ms : Members α} (once : (keys ms).Nodup) {key : String} {v w : α}
    (hv : (key, v) ∈ ms) (hw : (key, w) ∈ ms) : v = w := by
  induction ms with
  | nil => cases hv
  | cons head rest ih =>
    rw [keys_cons, List.nodup_cons] at once
    have named : ∀ {u : α}, (key, u) ∈ rest → key ∈ keys rest := fun h =>
      List.mem_map_of_mem (f := (·.1)) h
    rcases List.mem_cons.mp hv with first | below
    · rcases List.mem_cons.mp hw with again | later
      · exact (Prod.mk.inj (first.trans again.symm)).2
      · subst first
        exact absurd (named later) once.1
    · rcases List.mem_cons.mp hw with again | later
      · subst again
        exact absurd (named below) once.1
      · exact ih once.2 below later

theorem get?_eq_some_iff {key : String} {v : α} {ms : Members α} (once : (keys ms).Nodup) :
    get? key ms = some v ↔ (key, v) ∈ ms := by
  refine ⟨mem_of_get?, fun h => ?_⟩
  cases hg : get? key ms with
  | none => exact absurd (List.mem_map_of_mem h) ((get?_eq_none_iff key ms).mp hg)
  | some w => rw [eq_of_mem once h (mem_of_get? hg)]

theorem get?_append (key : String) (ms ns : Members α) :
    get? key (ms ++ ns) = (get? key ms).or (get? key ns) := by
  induction ms with
  | nil => simp
  | cons head rest ih =>
    obtain ⟨k, v⟩ := head
    by_cases h : k = key <;> simp [get?, h, ih]

/-! ## Writing -/

theorem get?_put (key other : String) (v : α) (ms : Members α) :
    get? other (put key v ms) = if other = key then some v else get? other ms := by
  by_cases h : other = key
  · simp [h, get?_put_self]
  · simp [h, get?_put_of_ne h]

theorem keys_put (key : String) (v : α) (ms : Members α) :
    keys (put key v ms) = if key ∈ keys ms then keys ms else keys ms ++ [key] := by
  induction ms with
  | nil => simp [put, keys]
  | cons head rest ih =>
    obtain ⟨k, w⟩ := head
    by_cases h : k = key
    · simp [put, h, keys_cons]
    · have hs : key ≠ k := Ne.symm h
      simp only [put, h, if_false, keys_cons, ih, List.mem_cons, hs, false_or]
      split <;> rfl

theorem mem_keys_put {key other : String} {v : α} {ms : Members α} :
    other ∈ keys (put key v ms) ↔ other = key ∨ other ∈ keys ms := by
  rw [keys_put]
  split
  · rename_i h
    exact ⟨Or.inr, fun ho => ho.elim (fun he => he ▸ h) id⟩
  · simp [or_comm]

theorem nodup_keys_put {key : String} {v : α} {ms : Members α} (hn : (keys ms).Nodup) :
    (keys (put key v ms)).Nodup := by
  rw [keys_put]
  split
  · exact hn
  · rename_i h
    rw [List.nodup_append]
    refine ⟨hn, by simp, ?_⟩
    intro a ha b hb he
    rw [List.mem_singleton] at hb
    exact h (hb ▸ he ▸ ha)

/-- Writing what is there changes nothing. -/
theorem put_of_get? {key : String} {v : α} {ms : Members α} (h : get? key ms = some v) :
    put key v ms = ms := by
  induction ms with
  | nil => cases h
  | cons head rest ih =>
    obtain ⟨k, w⟩ := head
    by_cases hk : k = key
    · rw [get?, if_pos hk] at h
      cases h
      rw [put, if_pos hk]
    · rw [get?, if_neg hk] at h
      rw [put, if_neg hk, ih h]

/-- A new name goes to the end. -/
theorem put_of_not_mem {key : String} {v : α} {ms : Members α} (h : key ∉ keys ms) :
    put key v ms = ms ++ [(key, v)] := by
  induction ms with
  | nil => rfl
  | cons head rest ih =>
    obtain ⟨k, w⟩ := head
    rw [keys_cons, List.mem_cons, not_or] at h
    simp [put, Ne.symm h.1, ih h.2]

/-! ## Members under other names -/

/-- Writing to a name leaves the members apart from it as they are, in their order. -/
theorem get?_erase {key : String} {ms : Members α} (once : (keys ms).Nodup) (other : String) :
    get? other (erase key ms) = if other = key then none else get? other ms := by
  induction ms with
  | nil => simp [erase]
  | cons head rest ih =>
    obtain ⟨k, v⟩ := head
    rw [keys_cons, List.nodup_cons] at once
    rw [erase]
    by_cases hk : k = key
    · subst hk
      rw [if_pos rfl]
      split
      · rename_i ho
        rw [ho, get?_eq_none_iff]
        exact once.1
      · rename_i ho
        rw [get?, if_neg (Ne.symm ho)]
    · rw [if_neg hk, get?, get?, ih once.2]
      by_cases ho : k = other
      · rw [if_pos ho, if_pos ho, if_neg (ho ▸ hk)]
      · rw [if_neg ho, if_neg ho]

theorem erase_sublist (key : String) (ms : Members α) : (erase key ms).Sublist ms := by
  induction ms with
  | nil => exact .refl _
  | cons head rest ih =>
    obtain ⟨k, v⟩ := head
    rw [erase]
    split
    · exact List.sublist_cons_self _ _
    · exact ih.cons_cons _

theorem nodup_keys_erase {key : String} {ms : Members α} (once : (keys ms).Nodup) :
    (keys (erase key ms)).Nodup :=
  once.sublist ((erase_sublist key ms).map _)

theorem erase_put_self (key : String) (v : α) (ms : Members α) :
    erase key (put key v ms) = erase key ms := by
  induction ms with
  | nil => simp [put, erase]
  | cons head rest ih =>
    obtain ⟨k, w⟩ := head
    by_cases hk : k = key <;> simp [put, erase, hk, ih]

theorem erase_put_of_ne {key other : String} (h : other ≠ key) (v : α) (ms : Members α) :
    erase other (put key v ms) = put key v (erase other ms) := by
  induction ms with
  | nil => simp [put, erase, Ne.symm h]
  | cons head rest ih =>
    obtain ⟨k, w⟩ := head
    by_cases hk : k = key
    · subst hk
      simp [put, erase, Ne.symm h]
    · by_cases ho : k = other
      · subst ho
        simp [put, erase, hk]
      · simp [put, erase, hk, ho, ih]

/-- What is erased stands at one place, if anywhere. -/
theorem erase_split (key : String) (ms : Members α) : erase key ms = ms ∨
    ∃ before v after, ms = before ++ (key, v) :: after ∧ erase key ms = before ++ after := by
  induction ms with
  | nil => exact .inl rfl
  | cons head rest ih =>
    obtain ⟨k, v⟩ := head
    rw [erase]
    by_cases hk : k = key
    · subst hk
      rw [if_pos rfl]
      exact .inr ⟨[], v, rest, rfl, rfl⟩
    · rw [if_neg hk]
      rcases ih with same | ⟨before, w, after, split, rest⟩
      · exact .inl (by rw [same])
      · exact .inr ⟨(k, v) :: before, w, after, by rw [split]; rfl, by rw [rest]; rfl⟩

theorem filter_put (apart : String → Bool) {key : String} (h : apart key = false) (v : α)
    (ms : Members α) :
    (put key v ms).filter (fun m => apart m.1) = ms.filter (fun m => apart m.1) := by
  induction ms with
  | nil => simp [put, h]
  | cons head rest ih =>
    obtain ⟨k, w⟩ := head
    by_cases hk : k = key
    · simp [put, hk, h]
    · simp only [put, hk, if_false, List.filter_cons, ih]

theorem filter_erase (apart : String → Bool) {key : String} (h : apart key = false)
    (ms : Members α) :
    (erase key ms).filter (fun m => apart m.1) = ms.filter (fun m => apart m.1) := by
  induction ms with
  | nil => rfl
  | cons head rest ih =>
    obtain ⟨k, w⟩ := head
    by_cases hk : k = key
    · simp [erase, hk, h]
    · simp only [erase, hk, if_false, List.filter_cons, ih]

theorem get?_filter (apart : String → Bool) {key : String} (h : apart key = true)
    (ms : Members α) : get? key (ms.filter fun m => apart m.1) = get? key ms := by
  induction ms with
  | nil => rfl
  | cons head rest ih =>
    obtain ⟨k, v⟩ := head
    by_cases hk : k = key
    · simp [get?, hk, h]
    · by_cases ha : apart k = true <;> simp [get?, hk, ha, ih]

/-! ## Pairs in order of arrival -/

theorem ofPairs_append_singleton (pairs : List (String × α)) (key : String) (v : α) :
    ofPairs (pairs ++ [(key, v)]) = put key v (ofPairs pairs) := by
  simp [ofPairs, List.foldl_append]

/-- The value of the last pair with a name. -/
def last? (key : String) (pairs : List (String × α)) : Option α := get? key pairs.reverse

theorem get?_ofPairs (key : String) (pairs : List (String × α)) :
    get? key (ofPairs pairs) = last? key pairs := by
  induction pairs using List.reverseRec with
  | nil => rfl
  | append_singleton pairs pair ih =>
    obtain ⟨k, v⟩ := pair
    rw [ofPairs_append_singleton, get?_put, last?, List.reverse_append]
    by_cases h : key = k
    · simp [get?, h]
    · simpa [get?, h, Ne.symm h, last?] using ih

theorem last?_append_cons {key : String} {after : List (String × α)} (last : key ∉ keys after)
    (before : List (String × α)) (v : α) : last? key (before ++ (key, v) :: after) = some v := by
  have absent : get? key after.reverse = none := by
    rw [get?_eq_none_iff, keys, List.map_reverse, List.mem_reverse]
    exact last
  rw [last?, List.reverse_append, List.reverse_cons, List.append_assoc, get?_append, absent]
  simp [get?]

theorem last?_append_singleton (key name : String) (v : α) (pairs : List (String × α)) :
    last? key (pairs ++ [(name, v)]) = if name = key then some v else last? key pairs := by
  rw [last?, List.reverse_append, List.reverse_singleton, List.singleton_append, get?, last?]

theorem last?_eq_none_iff {key : String} {pairs : List (String × α)} :
    last? key pairs = none ↔ key ∉ keys pairs := by
  rw [last?, get?_eq_none_iff, keys, List.map_reverse, List.mem_reverse, keys]

theorem last?_eq_some_iff {key : String} {v : α} {pairs : List (String × α)} :
    last? key pairs = some v ↔
      ∃ before after, pairs = before ++ (key, v) :: after ∧ key ∉ keys after := by
  constructor
  · intro h
    induction pairs using List.reverseRec with
    | nil => cases h
    | append_singleton pairs pair ih =>
      obtain ⟨name, w⟩ := pair
      rw [last?_append_singleton] at h
      split at h
      · rename_i same
        cases h
        exact ⟨pairs, [], by rw [same], List.not_mem_nil⟩
      · rename_i different
        obtain ⟨before, after, rfl, last⟩ := ih h
        refine ⟨before, after ++ [(name, w)], by simp, ?_⟩
        simpa [keys, Ne.symm different] using last
  · rintro ⟨before, after, rfl, last⟩
    exact last?_append_cons last before v

/-- The last pair with a name depends on the pairs with that name only. -/
theorem last?_filter (key : String) (pairs : List (String × α)) :
    last? key (pairs.filter fun pair => pair.1 = key) = last? key pairs := by
  rw [last?, last?, ← List.filter_reverse]
  exact get?_filter (fun k => decide (k = key)) (decide_eq_true rfl) _

theorem nodup_keys_ofPairs (pairs : List (String × α)) : (keys (ofPairs pairs)).Nodup := by
  induction pairs using List.reverseRec with
  | nil => exact List.nodup_nil
  | append_singleton pairs pair ih =>
    rw [ofPairs_append_singleton pairs pair.1 pair.2]
    exact nodup_keys_put ih

theorem mem_keys_ofPairs {key : String} {pairs : List (String × α)} :
    key ∈ keys (ofPairs pairs) ↔ key ∈ pairs.map (·.1) := by
  induction pairs using List.reverseRec with
  | nil => rfl
  | append_singleton pairs pair ih =>
    rw [ofPairs_append_singleton pairs pair.1 pair.2, mem_keys_put, ih]
    simp [or_comm]

/-- Pairs that repeat no name are members already. -/
theorem ofPairs_of_nodup {ms : Members α} (hn : (keys ms).Nodup) : ofPairs ms = ms := by
  induction ms using List.reverseRec with
  | nil => rfl
  | append_singleton ms pair ih =>
    have hk : keys (ms ++ [pair]) = keys ms ++ [pair.1] := by simp [keys]
    rw [hk, List.nodup_append] at hn
    obtain ⟨hms, -, hd⟩ := hn
    rw [ofPairs_append_singleton ms pair.1 pair.2, ih hms, put_of_not_mem]
    intro h
    exact hd _ h _ (List.mem_singleton.mpr rfl) rfl

/-- Every name stands where it arrived first. -/
theorem keys_ofPairs (pairs : List (String × α)) :
    keys (ofPairs pairs) = (pairs.map (·.1)).eraseDups := by
  induction pairs using List.reverseRec with
  | nil => rfl
  | append_singleton pairs pair ih =>
    rw [ofPairs_append_singleton pairs pair.1 pair.2, keys_put, ih, List.map_append,
      List.eraseDups_append]
    by_cases h : pair.1 ∈ pairs.map (·.1)
    · rw [if_pos (List.mem_eraseDups.mpr h)]
      simp [List.removeAll, h]
    · rw [if_neg fun hm => h (List.mem_eraseDups.mp hm)]
      simp [List.removeAll, h, List.eraseDups_cons]

/-- Members are known by their names and what stands under each. -/
theorem ext_get? {ms ns : Members α} (names : keys ms = keys ns) (once : (keys ms).Nodup)
    (values : ∀ key, get? key ms = get? key ns) : ms = ns := by
  induction ms generalizing ns with
  | nil => exact (List.map_eq_nil_iff.mp names.symm).symm
  | cons head rest ih =>
    obtain ⟨k, v⟩ := head
    cases ns with
    | nil => cases names
    | cons head others =>
      obtain ⟨k', w⟩ := head
      simp only [keys_cons, List.cons.injEq] at names
      obtain ⟨rfl, names⟩ := names
      rw [keys_cons, List.nodup_cons] at once
      have first : v = w := by simpa [get?] using values k
      have others : ∀ key, get? key rest = get? key others := by
        intro key
        by_cases hk : k = key
        · subst hk
          rw [(get?_eq_none_iff k rest).mpr once.1,
            (get?_eq_none_iff k others).mpr (names ▸ once.1)]
        · simpa [get?, hk] using values key
      rw [first, ih names once.2 others]

/-- Members that hold the same values are the same up to their order. -/
theorem perm_of_get? {ms ns : Members α} (once : (keys ms).Nodup) (once' : (keys ns).Nodup)
    (values : ∀ key, get? key ms = get? key ns) : ms.Perm ns := by
  have nodup : ∀ {us : Members α}, (keys us).Nodup → us.Nodup := fun h =>
    List.Pairwise.of_map (·.1) (fun _ _ apart same => apart (congrArg Prod.fst same)) h
  refine (List.perm_ext_iff_of_nodup (nodup once) (nodup once')).mpr fun ⟨key, v⟩ => ?_
  rw [← get?_eq_some_iff once, ← get?_eq_some_iff once', values]

theorem get?_of_perm {ms ns : Members α} (once : (keys ms).Nodup) (h : ms.Perm ns)
    (key : String) : get? key ms = get? key ns := by
  have once' : (keys ns).Nodup := (h.map Prod.fst).nodup_iff.mp once
  refine Option.ext fun v => ?_
  rw [get?_eq_some_iff once, get?_eq_some_iff once', h.mem_iff]

/-! ## Many writes and removals -/

def putAll (pairs : List (String × α)) (ms : Members α) : Members α :=
  pairs.foldl (fun ms (k, v) => put k v ms) ms

theorem putAll_cons (key : String) (v : α) (pairs : List (String × α)) (ms : Members α) :
    putAll ((key, v) :: pairs) ms = putAll pairs (put key v ms) := rfl

theorem get?_putAll {pairs : List (String × α)} (apart : (keys pairs).Nodup) (key : String)
    (ms : Members α) : get? key (putAll pairs ms) = (get? key pairs).or (get? key ms) := by
  induction pairs generalizing ms with
  | nil => rfl
  | cons pair pairs ih =>
    obtain ⟨k, v⟩ := pair
    rw [keys_cons, List.nodup_cons] at apart
    rw [putAll_cons, ih apart.2, get?_put, get?]
    by_cases h : key = k
    · subst h
      rw [(get?_eq_none_iff key pairs).mpr apart.1, if_pos rfl, if_pos rfl]
      rfl
    · rw [if_neg h, if_neg (Ne.symm h)]

theorem nodup_keys_putAll (pairs : List (String × α)) {ms : Members α} (once : (keys ms).Nodup) :
    (keys (putAll pairs ms)).Nodup := by
  induction pairs generalizing ms with
  | nil => exact once
  | cons pair pairs ih => exact ih (nodup_keys_put once)

/-- Names that are new follow those that are there, in the order of the pairs. -/
theorem keys_putAll {pairs : List (String × α)} (apart : (keys pairs).Nodup) (ms : Members α) :
    keys (putAll pairs ms) = keys ms ++ (keys pairs).filter fun k => k ∉ keys ms := by
  induction pairs generalizing ms with
  | nil => exact (List.append_nil _).symm
  | cons pair pairs ih =>
    obtain ⟨k, v⟩ := pair
    rw [keys_cons, List.nodup_cons] at apart
    rw [putAll_cons, ih apart.2, keys_put, keys_cons]
    by_cases h : k ∈ keys ms
    · simp [h]
    · have others : ∀ name ∈ keys pairs,
          decide (name ∉ keys ms ++ [k]) = decide (name ∉ keys ms) := by
        intro name hn
        have hk : name ≠ k := fun he => apart.1 (he ▸ hn)
        simp [hk]
      rw [if_neg h, List.filter_congr others, List.filter_cons_of_pos (by simpa using h),
        List.append_assoc]
      rfl

/-- Names that are paired with values, as far as there are any. -/
theorem keys_zip (names : List String) (values : List α) :
    keys (names.zip values) = names.take values.length := by
  induction names generalizing values with
  | nil => rw [List.zip_nil_left, List.take_nil]; rfl
  | cons name names ih =>
    cases values with
    | nil => rfl
    | cons v values => rw [List.zip_cons_cons, keys_cons, ih, List.length_cons, List.take_succ_cons]

theorem keys_filter (kept : String → Bool) (ms : Members α) :
    keys (ms.filter fun m => kept m.1) = (keys ms).filter kept := by
  rw [keys, keys, List.filter_map]
  rfl

theorem erase_eq_filter {key : String} {ms : Members α} (once : (keys ms).Nodup) :
    erase key ms = ms.filter fun m => m.1 ≠ key := by
  induction ms with
  | nil => rfl
  | cons head rest ih =>
    obtain ⟨k, v⟩ := head
    rw [keys_cons, List.nodup_cons] at once
    rw [erase]
    by_cases hk : k = key
    · subst hk
      have others : rest.filter (fun m => m.1 ≠ k) = rest := by
        refine List.filter_eq_self.mpr fun m hm => decide_eq_true ?_
        exact fun he => once.1 (he ▸ List.mem_map_of_mem hm)
      rw [if_pos rfl, List.filter_cons_of_neg (by simp), others]
    · rw [if_neg hk, List.filter_cons_of_pos (by simpa using hk), ih once.2]

/-- Names that are erased one after the other are gone, and all else is as it was. -/
theorem foldl_erase (names : List String) {ms : Members α} (once : (keys ms).Nodup) :
    names.foldl (fun ms k => erase k ms) ms = ms.filter fun m => !names.contains m.1 := by
  induction names generalizing ms with
  | nil => exact (List.filter_eq_self.mpr fun _ _ => rfl).symm
  | cons name names ih =>
    rw [List.foldl_cons, ih (nodup_keys_erase once), erase_eq_filter once, List.filter_filter]
    refine List.filter_congr fun m _ => ?_
    simp [Bool.and_comm]

end CommandContract.Members
