namespace QueryPipeline

/-- Keys with what stands under them, in order. Where keys are of another kind than text, the same
functions work on lists of pairs. -/
abbrev Entries (α : Type) := List (String × α)

namespace Entries

variable {κ α : Type} [BEq κ]

/-- What stands under `key`: of two entries with one key, the first. -/
def get? : List (κ × α) → κ → Option α
  | [], _ => none
  | (k, a) :: rest, key => if k == key then some a else get? rest key

def has (entries : List (κ × α)) (key : κ) : Bool :=
  (get? entries key).isSome

def keys (entries : Entries α) : List String :=
  entries.map Prod.fst

/-- Puts `a` under `key`: in the place of the entry that is there, else at the end. -/
def put : List (κ × α) → κ → α → List (κ × α)
  | [], key, a => [(key, a)]
  | (k, b) :: rest, key, a => if k == key then (k, a) :: rest else (k, b) :: put rest key a

def erase (entries : List (κ × α)) (key : κ) : List (κ × α) :=
  entries.filter fun entry => !(entry.1 == key)

def update (entries more : List (κ × α)) : List (κ × α) :=
  more.foldl (fun es entry => put es entry.1 entry.2) entries

def ofList (pairs : List (κ × α)) : List (κ × α) :=
  update [] pairs

@[simp] theorem get?_nil (key : κ) : get? ([] : List (κ × α)) key = none := rfl

theorem get?_cons (k : κ) (a : α) (rest : List (κ × α)) (key : κ) :
    get? ((k, a) :: rest) key = if k == key then some a else get? rest key := rfl

@[simp] theorem get?_put_self [ReflBEq κ] (entries : List (κ × α)) (key : κ) (a : α) :
    get? (put entries key a) key = some a := by
  induction entries with
  | nil => simp [put, get?]
  | cons entry rest ih =>
    obtain ⟨k, b⟩ := entry
    by_cases h : k == key
    · simp [put, h, get?]
    · simp [put, h, get?, ih]

theorem get?_put_of_ne [PartialEquivBEq κ] (entries : List (κ × α)) {key other : κ} (a : α)
    (h : (key == other) = false) : get? (put entries key a) other = get? entries other := by
  induction entries with
  | nil => simp [put, get?, h]
  | cons entry rest ih =>
    obtain ⟨k, b⟩ := entry
    by_cases hk : k == key
    · have ho : (k == other) = false := (BEq.congr_left hk).trans h
      simp [put, hk, get?, ho]
    · simp [put, hk, get?, ih]

end Entries

end QueryPipeline
