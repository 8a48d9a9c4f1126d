import RefractContracts.Host.Dict
import RefractContracts.Scripts.FeeBump

/-! Python on what `json.load` gives. A subscript, a call of `get` or a loop works on some kinds of
values and traps on the others; an object is a dictionary, so the last pair of a key counts. What
`repr` writes is a parameter. -/

namespace RefractContracts.Scripts

open Host

inductive Json (py : Python) where
  | value (v : PyValue py)
  | list (items : List (Json py))
  | dict (pairs : List (String × Json py))

namespace Json

variable {py : Python}

def null : Json py := .value .none

def str (s : String) : Json py := .value (.str s)

def int (n : ℤ) : Json py := .value (.int n)

/-! ### Values -/

def isNone : Json py → Bool
  | value .none => true
  | _ => false

/-- `v == s` for a text `s`. -/
def isText (v : Json py) (s : String) : Bool :=
  match v with
  | value (.str t) => t = s
  | _ => false

/-- `v == n` for a number `n`. -/
def isInt (v : Json py) (n : ℤ) : Bool :=
  match v with
  | value v => v.eq (.int n)
  | _ => false

/-- `bool(v)`. -/
def truthy : Json py → Bool
  | value v => v.truthy
  | list items => items ≠ []
  | dict pairs => pairs ≠ []

/-- `int(v)`. -/
def toInt : Json py → Outcome String ℤ
  | value v => v.toInt
  | _ => .error .trap

/-- `str(v)`. -/
def text (repr : Json py → String) : Json py → String
  | value v => v.text
  | v => repr v

/-- A text, for the methods that only texts have. -/
def asText : Json py → Outcome String String
  | value (.str s) => .ok s
  | _ => .error .trap

/-- A key of a dictionary; a list or an object has no hash. -/
def asKey : Json py → Outcome String (PyValue py)
  | value v => .ok v
  | _ => .error .trap

/-! ### Parts -/

/-- `v.items()`. -/
def pairs : Json py → Outcome String (Dict String (Json py))
  | dict pairs => .ok (.ofList pairs)
  | _ => .error .trap

/-- `v.get(k)`. -/
def get (v : Json py) (k : String) : Outcome String (Option (Json py)) := do
  let pairs ← v.pairs
  return pairs.get? k

/-- `v[k]`. -/
def field (v : Json py) (k : String) : Outcome String (Json py) := do
  match ← v.get k with
  | some x => return x
  | none => .error .trap

/-- `k in v`. -/
def contains (v : Json py) (k : String) : Outcome String Bool :=
  match v with
  | dict pairs => .ok ((Dict.ofList pairs).get? k).isSome
  | list items => .ok (items.any fun x => x.isText k)
  | value (.str s) => .ok (k.toList <:+: s.toList)
  | _ => .error .trap

/-- `for x in v`. -/
def items : Json py → Outcome String (List (Json py))
  | list items => .ok items
  | dict pairs => .ok ((Dict.ofList pairs).entries.map fun e => str e.1)
  | value (.str s) => .ok (s.toList.map fun c => str (.singleton c))
  | _ => .error .trap

theorem isText_iff {v : Json py} {s : String} : v.isText s = true ↔ v = str s := by
  constructor
  · intro h
    match v, h with
    | value (.str t), h =>
      obtain rfl : t = s := of_decide_eq_true h
      rfl
  · rintro rfl
    exact decide_eq_true rfl

theorem asText_eq_ok {v : Json py} {s : String} : v.asText = .ok s ↔ v = str s := by
  constructor
  · intro h
    match v, h with
    | value (.str t), h =>
      obtain rfl : t = s := Except.ok.inj h
      rfl
  · rintro rfl
    rfl

theorem asKey_eq_ok {v : Json py} {key : PyValue py} : v.asKey = .ok key ↔ v = value key := by
  cases v <;> simp [asKey]

end Json

/-- `sorted` of pairs with distinct keys. -/
def sortedByKey {α : Type} (l : List (String × α)) : List (String × α) :=
  l.insertionSort fun a b => a.1 ≤ b.1

theorem mem_sortedByKey {α : Type} {l : List (String × α)} {e : String × α} :
    e ∈ sortedByKey l ↔ e ∈ l := List.mem_insertionSort _

/-! ### Keys of any kind -/

section Keys
variable {py : Python} {α : Type}

/-- `v < w`; texts are ordered among themselves, and numbers are. -/
def PyValue.lt? : PyValue py → PyValue py → Option Bool
  | str s, str t => some (s < t)
  | other x, other y => some (py.lt x y)
  | other x, w => w.number?.map (py.ltInt x)
  | v, other y => v.number?.map (py.intLt · y)
  | v, w => v.number?.bind fun m => w.number?.map fun n => m < n

/-- `d[key] = a`; an equal key stays as it is. -/
def assign (key : PyValue py) (a : α) : List (PyValue py × α) → List (PyValue py × α)
  | [] => [(key, a)]
  | e :: d => if e.1.eq key then (e.1, a) :: d else e :: assign key a d

/-- The dictionary of the pairs. -/
def dictOf (pairs : List (PyValue py × α)) : List (PyValue py × α) :=
  pairs.foldl (fun d e => assign e.1 e.2 d) []

/-- `sorted` of the items of a dictionary, by keys that are in order or not comparable. -/
def sortedItems (d : List (PyValue py × α)) : Outcome String (List (PyValue py × α)) :=
  if d.Pairwise fun e e' => (e.1.lt? e'.1).isSome then
    .ok (d.insertionSort fun e e' => e'.1.lt? e.1 ≠ some true)
  else .error .trap

/-- The key is the one of the pair, or equal to it. -/
def Stands (e : PyValue py × α) (key : PyValue py) (a : α) : Prop :=
  (e.1 = key ∨ e.1.eq key = true) ∧ e.2 = a

/-- Only a text equals a text. -/
theorem eq_str_of_same {key : PyValue py} {s : String}
    (h : .str s = key ∨ (PyValue.str s).eq key = true) : key = .str s := by
  rcases h with rfl | h
  · rfl
  · cases key with
    | str t =>
      obtain rfl : s = t := of_decide_eq_true h
      rfl
    | none | bool | int | other => cases h

theorem exists_stands_assign (key : PyValue py) (a : α) (d : List (PyValue py × α)) :
    ∃ e ∈ assign key a d, Stands e key a := by
  induction d with
  | nil => exact ⟨(key, a), List.mem_singleton_self _, .inl rfl, rfl⟩
  | cons e d ih =>
    rw [assign]
    split_ifs with heq
    · exact ⟨(e.1, a), List.mem_cons_self, .inr heq, rfl⟩
    · obtain ⟨e', he', hstands⟩ := ih
      exact ⟨e', List.mem_cons_of_mem _ he', hstands⟩

theorem mem_assign {key : PyValue py} {a : α} {d : List (PyValue py × α)} {e : PyValue py × α}
    (he : e ∈ assign key a d) : Stands e key a ∨ e ∈ d := by
  induction d with
  | nil =>
    obtain rfl := List.mem_singleton.mp he
    exact .inl ⟨.inl rfl, rfl⟩
  | cons e' d ih =>
    rw [assign] at he
    split_ifs at he with heq
    · rcases List.mem_cons.mp he with rfl | hmem
      · exact .inl ⟨.inr heq, rfl⟩
      · exact .inr (List.mem_cons_of_mem _ hmem)
    · rcases List.mem_cons.mp he with rfl | hmem
      · exact .inr List.mem_cons_self
      · exact (ih hmem).imp_right (List.mem_cons_of_mem _)

/-- A key stays in a dictionary. -/
theorem exists_key_assign (key : PyValue py) (a : α) {d : List (PyValue py × α)}
    {e : PyValue py × α} (he : e ∈ d) : ∃ e' ∈ assign key a d, e'.1 = e.1 := by
  induction d with
  | nil => cases he
  | cons e' d ih =>
    rw [assign]
    rcases List.mem_cons.mp he with rfl | hmem
    · split_ifs
      · exact ⟨_, List.mem_cons_self, rfl⟩
      · exact ⟨_, List.mem_cons_self, rfl⟩
    · split_ifs
      · exact ⟨e, List.mem_cons_of_mem _ hmem, rfl⟩
      · obtain ⟨e'', he'', hkey⟩ := ih hmem
        exact ⟨e'', List.mem_cons_of_mem _ he'', hkey⟩

theorem dictOf_concat (pairs : List (PyValue py × α)) (e : PyValue py × α) :
    dictOf (pairs ++ [e]) = assign e.1 e.2 (dictOf pairs) := by
  rw [dictOf, List.foldl_concat]
  rfl

/-- What is in a dictionary is of a pair with its key. -/
theorem mem_dictOf {pairs : List (PyValue py × α)} {e : PyValue py × α} (he : e ∈ dictOf pairs) :
    ∃ pair ∈ pairs, Stands e pair.1 pair.2 := by
  induction pairs using List.reverseRecOn with
  | nil => cases he
  | append_singleton pairs pair ih =>
    rw [dictOf_concat] at he
    rcases mem_assign he with hstands | hmem
    · exact ⟨pair, List.mem_append_right _ (List.mem_singleton_self _), hstands⟩
    · obtain ⟨pair', hpair', hstands⟩ := ih hmem
      exact ⟨pair', List.mem_append_left _ hpair', hstands⟩

/-- The key of a pair is in the dictionary, or one that equals it. -/
theorem exists_mem_dictOf {pairs : List (PyValue py × α)} {pair : PyValue py × α}
    (hpair : pair ∈ pairs) : ∃ e ∈ dictOf pairs, e.1 = pair.1 ∨ e.1.eq pair.1 = true := by
  induction pairs using List.reverseRecOn with
  | nil => cases hpair
  | append_singleton pairs last ih =>
    rw [dictOf_concat]
    rcases List.mem_append.mp hpair with hmem | hlast
    · obtain ⟨e, he, hkey⟩ := ih hmem
      obtain ⟨e', he', hsame⟩ := exists_key_assign last.1 last.2 he
      exact ⟨e', he', hsame ▸ hkey⟩
    · obtain rfl := List.mem_singleton.mp hlast
      obtain ⟨e, he, hkey, -⟩ := exists_stands_assign pair.1 pair.2 (dictOf pairs)
      exact ⟨e, he, hkey⟩

theorem mem_sortedItems {d sorted : List (PyValue py × α)} (h : sortedItems d = .ok sorted)
    {e : PyValue py × α} : e ∈ sorted ↔ e ∈ d := by
  rw [sortedItems] at h
  split_ifs at h
  obtain rfl := Except.ok.inj h
  exact List.mem_insertionSort _

end Keys

end RefractContracts.Scripts
