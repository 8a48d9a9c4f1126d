import Mathlib
import RefractContracts.Host.Dict
import RefractContracts.Host.Text

/-! JSON values and their texts. A text is printable ASCII between the blanks of its layout: what
is not printable is escaped, and every item may stand on a line of its own. A text that is to be
compared has its members sorted, and some left out; what is found under the other keys does not
change. -/

namespace RefractContracts.Host.JsonText

/-- A JSON value; the members of an object in the order in which they are written. -/
inductive Value where
  | null
  | bool (b : Bool)
  | int (n : ℤ)
  | str (s : String)
  | arr (items : List Value)
  | obj (members : List (String × Value))

/-! ### Strings -/

def hex4 (n : ℕ) : List Char :=
  [Nat.digitChar (n / 4096), Nat.digitChar (n / 256 % 16), Nat.digitChar (n / 16 % 16),
    Nat.digitChar (n % 16)]

def unicodeEscape (n : ℕ) : List Char := '\\' :: 'u' :: hex4 n

/-- A character within a string; what is not printable ASCII as UTF-16 code units. -/
def escapeChar (c : Char) : List Char :=
  if c = '"' then ['\\', '"']
  else if c = '\\' then ['\\', '\\']
  else if c = '\n' then ['\\', 'n']
  else if c = '\r' then ['\\', 'r']
  else if c = '\t' then ['\\', 't']
  else if c.toNat = 12 then ['\\', 'f']
  else if c.toNat = 8 then ['\\', 'b']
  else if 32 ≤ c.toNat ∧ c.toNat ≤ 126 then [c]
  else if c.toNat < 0x10000 then unicodeEscape c.toNat
  else unicodeEscape (0xD800 + (c.toNat - 0x10000) / 1024) ++
    unicodeEscape (0xDC00 + (c.toNat - 0x10000) % 1024)

/-- A string, with its quotation marks. -/
def quote (s : String) : List Char := '"' :: (s.toList.flatMap escapeChar ++ ['"'])

/-! ### Texts -/

def isBlank (c : Char) : Bool := c = ' ' ∨ c = '\t' ∨ c = '\n' ∨ c = '\r'

/-- The blanks of a text: after a colon, and before what stands at a depth. -/
structure Layout where
  colon : List Char
  line : ℕ → List Char
  colon_blank : ∀ c ∈ colon, isBlank c = true
  line_blank : ∀ depth, ∀ c ∈ line depth, isBlank c = true

/-- `separators=(",", ":")`. -/
def compact : Layout where
  colon := []
  line _ := []
  colon_blank := by simp
  line_blank := by simp

/-- `indent=2`. -/
def indented : Layout where
  colon := [' ']
  line depth := '\n' :: List.replicate (2 * depth) ' '
  colon_blank := by simp [isBlank]
  line_blank depth c hc := by
    rcases List.mem_cons.mp hc with rfl | hc
    · rfl
    · obtain rfl := List.eq_of_mem_replicate hc
      rfl

namespace Layout
variable (l : Layout)

/-- What follows the first item, and the bracket. -/
def rest (last : Char) (depth : ℕ) : List (List Char) → List Char
  | [] => l.line depth ++ [last]
  | t :: ts => ',' :: (l.line (depth + 1) ++ (t ++ rest last depth ts))

/-- The texts of items between brackets. -/
def bracketed (first last : Char) (depth : ℕ) : List (List Char) → List Char
  | [] => [first, last]
  | t :: ts => first :: (l.line (depth + 1) ++ (t ++ l.rest last depth ts))

/-- A member from its key and the text of its value. -/
def member (key : String) (text : List Char) : List Char := quote key ++ ':' :: (l.colon ++ text)

mutual

/-- The text of a value at a depth. -/
def dumps (depth : ℕ) : Value → List Char
  | .null => "null".toList
  | .bool true => "true".toList
  | .bool false => "false".toList
  | .int n => n.repr.toList
  | .str s => quote s
  | .arr items => l.bracketed '[' ']' depth (dumpsItems (depth + 1) items)
  | .obj members => l.bracketed '{' '}' depth (dumpsMembers (depth + 1) members)

def dumpsItems (depth : ℕ) : List Value → List (List Char)
  | [] => []
  | v :: items => dumps depth v :: dumpsItems depth items

def dumpsMembers (depth : ℕ) : List (String × Value) → List (List Char)
  | [] => []
  | (k, v) :: members => l.member k (dumps depth v) :: dumpsMembers depth members

end

section Characters
variable {l} {P : Char → Prop}

theorem printable_of_all {cs : List Char} (h : cs.all (fun c => decide (32 ≤ c.toNat)) = true) :
    ∀ c ∈ cs, 32 ≤ c.toNat := fun c hc => of_decide_eq_true (List.all_eq_true.mp h c hc)

theorem printable_digitChar {n : ℕ} (hn : n < 16) : 32 ≤ (Nat.digitChar n).toNat := by
  have h : ∀ m < 16, 32 ≤ (Nat.digitChar m).toNat := by decide
  exact h n hn

theorem printable_unicodeEscape {n : ℕ} (hn : n < 0x10000) :
    ∀ c ∈ unicodeEscape n, 32 ≤ c.toNat := by
  simp only [unicodeEscape, hex4, List.forall_mem_cons]
  exact ⟨by decide, by decide, printable_digitChar (by omega), printable_digitChar (by omega),
    printable_digitChar (by omega), printable_digitChar (by omega), List.forall_mem_nil _⟩

theorem printable_escapeChar (c : Char) : ∀ d ∈ escapeChar c, 32 ≤ d.toNat := by
  have hvalid : c.toNat < 0xD800 ∨ 0xDFFF < c.toNat ∧ c.toNat < 0x110000 := c.valid
  unfold escapeChar
  split_ifs with h₁ h₂ h₃ h₄ h₅ h₆ h₇ h₈ h₉
  · exact printable_of_all rfl
  · exact printable_of_all rfl
  · exact printable_of_all rfl
  · exact printable_of_all rfl
  · exact printable_of_all rfl
  · exact printable_of_all rfl
  · exact printable_of_all rfl
  · exact List.forall_mem_singleton.mpr h₈.1
  · exact printable_unicodeEscape h₉
  · exact List.forall_mem_append.mpr
      ⟨printable_unicodeEscape (by omega), printable_unicodeEscape (by omega)⟩

theorem printable_quote (s : String) : ∀ c ∈ quote s, 32 ≤ c.toNat := by
  refine List.forall_mem_cons.mpr ⟨by decide, List.forall_mem_append.mpr ⟨fun c hc => ?_, by simp⟩⟩
  obtain ⟨d, -, hd⟩ := List.mem_flatMap.mp hc
  exact printable_escapeChar d c hd

theorem printable_repr (n : ℤ) : ∀ c ∈ n.repr.toList, 32 ≤ c.toNat := by
  intro c hc
  by_contra h
  refine notMem_repr_int (c := c) (fun hdigit => h ?_) (fun hminus => h ?_) n hc
  · have := (Char.isDigit_iff_toNat.mp hdigit).1
    simp only [Char.reduceToNat] at this
    omega
  · rw [hminus]
    decide

theorem forall_mem_bracketed {first last : Char} {depth : ℕ} {ts : List (List Char)}
    (hfirst : P first) (hlast : P last) (hcomma : P ',') (hline : ∀ depth, ∀ c ∈ l.line depth, P c)
    (hts : ∀ t ∈ ts, ∀ c ∈ t, P c) : ∀ c ∈ l.bracketed first last depth ts, P c := by
  have hrest : ∀ ts : List (List Char), (∀ t ∈ ts, ∀ c ∈ t, P c) →
      ∀ c ∈ l.rest last depth ts, P c := by
    intro ts
    induction ts with
    | nil =>
      exact fun _ =>
        List.forall_mem_append.mpr ⟨hline _, List.forall_mem_singleton.mpr hlast⟩
    | cons t ts ih =>
      intro h
      obtain ⟨ht, hts⟩ := List.forall_mem_cons.mp h
      exact List.forall_mem_cons.mpr ⟨hcomma, List.forall_mem_append.mpr
        ⟨hline _, List.forall_mem_append.mpr ⟨ht, ih hts⟩⟩⟩
  cases ts with
  | nil => exact List.forall_mem_cons.mpr ⟨hfirst, List.forall_mem_singleton.mpr hlast⟩
  | cons t ts =>
    obtain ⟨ht, hts⟩ := List.forall_mem_cons.mp hts
    exact List.forall_mem_cons.mpr ⟨hfirst, List.forall_mem_append.mpr
      ⟨hline _, List.forall_mem_append.mpr ⟨ht, hrest ts hts⟩⟩⟩

mutual

/-- A text has the blanks of its layout, and printable characters. -/
theorem forall_mem_dumps (hprint : ∀ c, 32 ≤ c.toNat → P c) (hcolon : ∀ c ∈ l.colon, P c)
    (hline : ∀ depth, ∀ c ∈ l.line depth, P c) :
    ∀ (v : Value) (depth : ℕ), ∀ c ∈ l.dumps depth v, P c
  | .null, _ => fun c hc => hprint c (printable_of_all (by rfl) c hc)
  | .bool true, _ => fun c hc => hprint c (printable_of_all (by rfl) c hc)
  | .bool false, _ => fun c hc => hprint c (printable_of_all (by rfl) c hc)
  | .int n, _ => fun c hc => hprint c (printable_repr n c hc)
  | .str s, _ => fun c hc => hprint c (printable_quote s c hc)
  | .arr items, _ => forall_mem_bracketed (hprint _ (by decide)) (hprint _ (by decide))
    (hprint _ (by decide)) hline (forall_mem_items hprint hcolon hline items _)
  | .obj members, _ => forall_mem_bracketed (hprint _ (by decide)) (hprint _ (by decide))
    (hprint _ (by decide)) hline (forall_mem_members hprint hcolon hline members _)

theorem forall_mem_items (hprint : ∀ c, 32 ≤ c.toNat → P c) (hcolon : ∀ c ∈ l.colon, P c)
    (hline : ∀ depth, ∀ c ∈ l.line depth, P c) :
    ∀ (items : List Value) (depth : ℕ), ∀ t ∈ l.dumpsItems depth items, ∀ c ∈ t, P c
  | [], _ => List.forall_mem_nil _
  | v :: items, depth => List.forall_mem_cons.mpr
    ⟨forall_mem_dumps hprint hcolon hline v depth, forall_mem_items hprint hcolon hline items depth⟩

theorem forall_mem_members (hprint : ∀ c, 32 ≤ c.toNat → P c) (hcolon : ∀ c ∈ l.colon, P c)
    (hline : ∀ depth, ∀ c ∈ l.line depth, P c) :
    ∀ (members : List (String × Value)) (depth : ℕ),
      ∀ t ∈ l.dumpsMembers depth members, ∀ c ∈ t, P c
  | [], _ => List.forall_mem_nil _
  | (k, v) :: members, depth => by
    refine List.forall_mem_cons.mpr ⟨?_, forall_mem_members hprint hcolon hline members depth⟩
    refine List.forall_mem_append.mpr ⟨fun c hc => hprint c (printable_quote k c hc), ?_⟩
    exact List.forall_mem_cons.mpr ⟨hprint _ (by decide), List.forall_mem_append.mpr
      ⟨hcolon, forall_mem_dumps hprint hcolon hline v depth⟩⟩

end

end Characters

end Layout

/-! ### Members -/

namespace Value

def members : Value → List (String × Value)
  | obj members => members
  | _ => []

/-- What an object has under a key. -/
def get? (v : Value) (k : String) : Option Value := v.members.lookup k

/-- What a reader keeps under a key: the last member, if it comes twice. -/
def last? (v : Value) (k : String) : Option Value := v.members.reverse.lookup k

/-- No key comes twice. -/
def Distinct (v : Value) : Prop := (v.members.map Prod.fst).Nodup

section Without
variable (drop : String → Bool)

mutual

/-- Without the members of some keys, at any depth. -/
def without : Value → Value
  | arr items => arr (withoutItems items)
  | obj members => obj (withoutMembers members)
  | v => v

def withoutItems : List Value → List Value
  | [] => []
  | v :: items => without v :: withoutItems items

def withoutMembers : List (String × Value) → List (String × Value)
  | [] => []
  | (k, v) :: members =>
    if drop k then withoutMembers members else (k, without v) :: withoutMembers members

end

end Without

mutual

/-- With the members of every object in the order of their keys. -/
def sortKeys : Value → Value
  | arr items => arr (sortItems items)
  | obj members => obj ((sortMembers members).insertionSort fun a b => a.1 ≤ b.1)
  | v => v

def sortItems : List Value → List Value
  | [] => []
  | v :: items => sortKeys v :: sortItems items

def sortMembers : List (String × Value) → List (String × Value)
  | [] => []
  | (k, v) :: members => (k, sortKeys v) :: sortMembers members

end

/-- What is compared of a value. -/
def canonical (drop : String → Bool) (v : Value) : Value := (v.without drop).sortKeys

section Canonical
variable {drop : String → Bool} {v : Value} {k : String}

theorem withoutItems_eq (items : List Value) :
    withoutItems drop items = items.map (without drop) := by
  induction items with
  | nil => rfl
  | cons v items ih => rw [withoutItems, ih, List.map_cons]

theorem sortItems_eq (items : List Value) : sortItems items = items.map sortKeys := by
  induction items with
  | nil => rfl
  | cons v items ih => rw [sortItems, ih, List.map_cons]

theorem lookup_withoutMembers (hk : drop k = false) (members : List (String × Value)) :
    (withoutMembers drop members).lookup k = (members.lookup k).map (without drop) := by
  induction members with
  | nil => rfl
  | cons m members ih =>
    obtain ⟨j, v⟩ := m
    rw [withoutMembers, lookup_cons_eq_ite]
    split_ifs with hj hkj hkj
    · rw [hkj, hj] at hk
      cases hk
    · exact ih
    · rw [lookup_cons_eq_ite, if_pos hkj]
      rfl
    · rw [lookup_cons_eq_ite, if_neg hkj, ih]

theorem keys_withoutMembers (members : List (String × Value)) :
    ((withoutMembers drop members).map Prod.fst).Sublist (members.map Prod.fst) := by
  induction members with
  | nil => exact .slnil
  | cons m members ih =>
    obtain ⟨j, v⟩ := m
    rw [withoutMembers]
    split_ifs
    · exact ih.cons j
    · exact ih.cons_cons j

theorem keys_sortMembers (members : List (String × Value)) :
    (sortMembers members).map Prod.fst = members.map Prod.fst := by
  induction members with
  | nil => rfl
  | cons m members ih => rw [sortMembers, List.map_cons, ih, List.map_cons]

theorem lookup_sortMembers (members : List (String × Value)) :
    (sortMembers members).lookup k = (members.lookup k).map sortKeys := by
  induction members with
  | nil => rfl
  | cons m members ih =>
    obtain ⟨j, v⟩ := m
    rw [sortMembers, lookup_cons_eq_ite, lookup_cons_eq_ite, ih]
    split_ifs <;> rfl

theorem get?_without (hk : drop k = false) : (v.without drop).get? k =
    (v.get? k).map (without drop) := by
  cases v <;> first | rfl | exact lookup_withoutMembers hk _

theorem Distinct.without (hv : v.Distinct) : (v.without drop).Distinct := by
  cases v <;> first | exact List.nodup_nil | exact (keys_withoutMembers _).nodup hv

/-- Where no key comes twice the order does not matter. -/
theorem lookup_perm {l l' : List (String × Value)} (h : l.Perm l') (hl : (l.map Prod.fst).Nodup) :
    l.lookup k = l'.lookup k := by
  let d : Dict String Value := ⟨l, hl⟩
  let d' : Dict String Value := ⟨l', (h.map Prod.fst).nodup_iff.mp hl⟩
  have hsame : d.get? k = d'.get? k :=
    Option.ext fun a => by rw [← Dict.mem_entries, ← Dict.mem_entries]; exact h.mem_iff
  exact hsame

theorem last?_eq_get? (hv : v.Distinct) : v.last? k = v.get? k :=
  (lookup_perm v.members.reverse_perm.symm hv).symm

theorem distinct_sortMembers {members : List (String × Value)} (hv : (obj members).Distinct) :
    ((sortMembers members).map Prod.fst).Nodup := by
  rw [keys_sortMembers]
  exact hv

theorem Distinct.sortKeys (hv : v.Distinct) : v.sortKeys.Distinct := by
  cases v with
  | obj members =>
    exact ((List.perm_insertionSort _ _).map Prod.fst).nodup_iff.mpr (distinct_sortMembers hv)
  | _ => exact List.nodup_nil

theorem get?_sortKeys (hv : v.Distinct) : v.sortKeys.get? k = (v.get? k).map sortKeys := by
  cases v with
  | obj members =>
    have hsorted := lookup_perm (k := k) (List.perm_insertionSort
      (fun a b : String × Value => a.1 ≤ b.1) (sortMembers members)).symm (distinct_sortMembers hv)
    exact hsorted.symm.trans (lookup_sortMembers members)
  | _ => rfl

/-- What is read of a value that was written with its keys sorted. -/
theorem last?_sortKeys (hv : v.Distinct) : v.sortKeys.last? k = (v.get? k).map sortKeys := by
  rw [last?_eq_get? hv.sortKeys, get?_sortKeys hv]

/-- What is compared has what the value has, under the keys that are not left out. -/
theorem get?_canonical (hv : v.Distinct) (hk : drop k = false) :
    (v.canonical drop).get? k = (v.get? k).map (canonical drop) := by
  rw [canonical, get?_sortKeys hv.without, get?_without hk, Option.map_map]
  rfl

theorem canonical_arr (items : List Value) :
    (arr items).canonical drop = arr (items.map (canonical drop)) := by
  rw [canonical, without, sortKeys, withoutItems_eq, sortItems_eq, List.map_map]
  rfl

theorem sortMembers_withoutMembers (members : List (String × Value)) :
    sortMembers (withoutMembers drop members) =
      (members.filter fun m => !drop m.1).map fun m => (m.1, m.2.canonical drop) := by
  induction members with
  | nil => rfl
  | cons m members ih =>
    obtain ⟨j, v⟩ := m
    rw [withoutMembers]
    split_ifs with hj
    · rw [ih, List.filter_cons_of_neg (by simp [hj])]
    · rw [sortMembers, ih, List.filter_cons_of_pos (by simpa using hj), List.map_cons]
      rfl

theorem canonical_obj (members : List (String × Value)) :
    (obj members).canonical drop =
      obj (((members.filter fun m => !drop m.1).map
          fun m => (m.1, m.2.canonical drop)).insertionSort
        fun a b => a.1 ≤ b.1) := by
  rw [← sortMembers_withoutMembers]
  rfl

end Canonical

end Value

end RefractContracts.Host.JsonText
