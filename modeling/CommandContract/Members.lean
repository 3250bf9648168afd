set_option autoImplicit false

/-!
# Named members in order of arrival

A list of pairs in which each name stands once. Writing to a present name keeps its place, a new
name goes to the end, and a removal keeps the order of the rest.
-/
namespace CommandContract

abbrev Members (α : Type) := List (String × α)

namespace Members

variable {α : Type}

def get? (key : String) : Members α → Option α
  | [] => none
  | (k, v) :: rest => if k = key then some v else get? key rest

def has (key : String) (ms : Members α) : Bool := (get? key ms).isSome

def put (key : String) (value : α) : Members α → Members α
  | [] => [(key, value)]
  | (k, v) :: rest => if k = key then (k, value) :: rest else (k, v) :: put key value rest

def erase (key : String) : Members α → Members α
  | [] => []
  | (k, v) :: rest => if k = key then rest else (k, v) :: erase key rest

def keys (ms : Members α) : List String := ms.map (·.1)

/-- Puts the pairs one after the other: the first arrival of a name fixes its place, the last its
value. -/
def ofPairs (pairs : List (String × α)) : Members α :=
  pairs.foldl (fun ms (k, v) => put k v ms) []

@[simp] theorem get?_nil (key : String) : get? key ([] : Members α) = none := rfl

theorem get?_put_self (key : String) (value : α) (ms : Members α) :
    get? key (put key value ms) = some value := by
  induction ms with
  | nil => simp [put, get?]
  | cons head rest ih =>
    obtain ⟨k, v⟩ := head
    by_cases h : k = key <;> simp [put, get?, h, ih]

theorem get?_put_of_ne {key other : String} (h : other ≠ key) (value : α) (ms : Members α) :
    get? other (put key value ms) = get? other ms := by
  induction ms with
  | nil => simp [put, get?, Ne.symm h]
  | cons head rest ih =>
    obtain ⟨k, v⟩ := head
    by_cases hk : k = key
    · subst hk; simp [put, get?, Ne.symm h]
    · by_cases ho : k = other
      · subst ho; simp [put, get?, hk]
      · simp [put, get?, hk, ho, ih]

end Members

end CommandContract
