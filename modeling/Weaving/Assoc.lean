/-
Lists of key and value pairs in which no key comes twice: values are found by key, replaced in place,
or added at the end.
-/
namespace Weaving.Assoc

variable {α β : Type} [DecidableEq α]

/-- Puts a value under a key: in place of the old one, or at the end. -/
def put (key : α) (value : β) : List (α × β) → List (α × β)
  | [] => [(key, value)]
  | entry :: rest => if entry.1 = key then (key, value) :: rest else entry :: put key value rest

/-- Puts a value under a key that has none yet. -/
def putNew (key : α) (value : β) : List (α × β) → List (α × β)
  | [] => [(key, value)]
  | entry :: rest => if entry.1 = key then entry :: rest else entry :: putNew key value rest

/-- The value under a key. -/
def get? (key : α) : List (α × β) → Option β
  | [] => none
  | entry :: rest => if entry.1 = key then some entry.2 else get? key rest

theorem get?_put_self (key : α) (value : β) (l : List (α × β)) :
    get? key (put key value l) = some value := by
  induction l with
  | nil => simp [put, get?]
  | cons entry rest ih => by_cases h : entry.1 = key <;> simp [put, get?, h, ih]

theorem get?_put_of_ne {key other : α} (value : β) (l : List (α × β)) (h : other ≠ key) :
    get? other (put key value l) = get? other l := by
  induction l with
  | nil => simp [put, get?, h.symm]
  | cons entry rest ih =>
    by_cases hk : entry.1 = key
    · subst hk
      simp [put, get?, h.symm]
    · simp [put, get?, hk, ih]

theorem get?_putNew_self (key : α) (value : β) (l : List (α × β)) :
    get? key (putNew key value l) = some ((get? key l).getD value) := by
  induction l with
  | nil => simp [putNew, get?]
  | cons entry rest ih => by_cases h : entry.1 = key <;> simp [putNew, get?, h, ih]

theorem get?_putNew_of_ne {key other : α} (value : β) (l : List (α × β)) (h : other ≠ key) :
    get? other (putNew key value l) = get? other l := by
  induction l with
  | nil => simp [putNew, get?, h.symm]
  | cons entry rest ih =>
    by_cases hk : entry.1 = key
    · subst hk
      simp [putNew]
    · simp [putNew, get?, hk, ih]

theorem get?_eq_none_iff {key : α} {l : List (α × β)} :
    get? key l = none ↔ key ∉ l.map Prod.fst := by
  induction l with
  | nil => simp [get?]
  | cons entry rest ih =>
    by_cases h : entry.1 = key
    · simp [get?, h]
    · simp [get?, h, ih, Ne.symm h]

theorem putNew_of_get? {key : α} {old : β} {l : List (α × β)} (h : get? key l = some old)
    (value : β) : putNew key value l = l := by
  induction l with
  | nil => simp [get?] at h
  | cons entry rest ih =>
    by_cases hk : entry.1 = key
    · simp [putNew, hk]
    · simp [get?, hk] at h
      simp [putNew, hk, ih h]

theorem map_fst_putNew {key : α} {l : List (α × β)} (h : get? key l = none) (value : β) :
    (putNew key value l).map Prod.fst = l.map Prod.fst ++ [key] := by
  induction l with
  | nil => simp [putNew]
  | cons entry rest ih =>
    by_cases hk : entry.1 = key
    · simp [get?, hk] at h
    · simp [get?, hk] at h
      simp [putNew, hk, ih h]

end Weaving.Assoc
