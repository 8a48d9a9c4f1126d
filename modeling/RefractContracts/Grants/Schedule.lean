import RefractContracts.Host.Outcome

/-! Payment by milestones. A grant promises a list of amounts that fall due one
after another; what is due is paid at once. So the amounts split in three: the
paid ones, those due, and those still ahead. Implementations store the list with
two flags for each amount, which `marks` reads off a schedule. -/

namespace RefractContracts.Grants

open Host

/-- The first element without `p`, behind a front that has it. -/
theorem eq_length_of_first {α : Type} {p : α → Bool} {front back : List α} {i : ℕ} {m : α}
    (hf : ∀ x ∈ front, p x = true) (hb : ∀ x ∈ back, p x = false)
    (hm : (front ++ back)[i]? = some m) (hun : p m = false)
    (hbefore : ∀ x ∈ (front ++ back).take i, p x = true) : i = front.length := by
  have hge : front.length ≤ i := by
    by_contra hlt
    rw [List.getElem?_append_left (by omega)] at hm
    simp [hf m (List.mem_of_getElem? hm)] at hun
  by_contra hne
  rw [List.getElem?_append_right hge] at hm
  have hlen := (List.getElem?_eq_some_iff.mp hm).1
  have hy := List.getElem?_eq_getElem (l := back) (i := 0) (by omega)
  have hmem : back[0] ∈ (front ++ back).take i := by
    refine List.mem_of_getElem? (i := front.length) ?_
    rw [List.getElem?_take_of_lt (by omega), List.getElem?_append_right le_rfl, Nat.sub_self, hy]
  have hyp := hbefore _ hmem
  simp [hb _ (List.mem_of_getElem? hy)] at hyp

structure Schedule where
  paid : List ℤ
  due : List ℤ
  ahead : List ℤ
  positive : ∀ x ∈ paid ++ due ++ ahead, 0 < x
  fits : (paid ++ due ++ ahead).sum ≤ maxI128

namespace Schedule

def amounts (s : Schedule) : List ℤ := s.paid ++ s.due ++ s.ahead

/-- A new schedule: everything is ahead. -/
def start (amounts : List ℤ) (positive : ∀ x ∈ amounts, 0 < x) (fits : amounts.sum ≤ maxI128) :
    Schedule := ⟨[], [], amounts, by simpa using positive, by simpa using fits⟩

/-- The next amount falls due. -/
def confirm (s : Schedule) {a : ℤ} {rest : List ℤ} (h : s.ahead = a :: rest) : Schedule where
  paid := s.paid
  due := s.due ++ [a]
  ahead := rest
  positive x hx := s.positive x (by simpa [h] using hx)
  fits := by simpa [h] using s.fits

/-- What is due is paid. -/
def settle (s : Schedule) : Schedule where
  paid := s.paid ++ s.due
  due := []
  ahead := s.ahead
  positive x hx := s.positive x (by simpa using hx)
  fits := by simpa using s.fits

variable (s : Schedule) {a : ℤ} {rest : List ℤ}

@[simp] theorem amounts_start (amounts : List ℤ) (hp : ∀ x ∈ amounts, 0 < x)
    (hf : amounts.sum ≤ maxI128) : (start amounts hp hf).amounts = amounts := by
  simp [Schedule.amounts, start]

@[simp] theorem amounts_confirm (h : s.ahead = a :: rest) : (s.confirm h).amounts = s.amounts := by
  simp [amounts, confirm, h]

@[simp] theorem amounts_settle : s.settle.amounts = s.amounts := by
  simp [amounts, settle]

theorem sum_amounts : s.amounts.sum = s.paid.sum + s.due.sum + s.ahead.sum := by
  simp [amounts, add_assoc]

theorem sum_nonneg {l : List ℤ} (hl : ∀ x ∈ l, x ∈ s.amounts) : 0 ≤ l.sum :=
  List.sum_nonneg fun x hx => (s.positive x (hl x hx)).le

theorem paid_nonneg : 0 ≤ s.paid.sum := s.sum_nonneg fun x hx => by simp [amounts, hx]

theorem due_nonneg : 0 ≤ s.due.sum := s.sum_nonneg fun x hx => by simp [amounts, hx]

theorem ahead_nonneg : 0 ≤ s.ahead.sum := s.sum_nonneg fun x hx => by simp [amounts, hx]

/-- What was paid is within the total. -/
theorem paid_le : s.paid.sum ≤ s.amounts.sum := by
  have hdue := s.due_nonneg
  have hahead := s.ahead_nonneg
  rw [sum_amounts]
  omega

/-- What is due fits. -/
theorem due_le : s.due.sum ≤ maxI128 := by
  have hpaid := s.paid_nonneg
  have hahead := s.ahead_nonneg
  have hfits : s.amounts.sum ≤ maxI128 := s.fits
  rw [sum_amounts] at hfits
  omega

/-- The amount that falls due next still fits with what is due. -/
theorem due_confirm_le (h : s.ahead = a :: rest) : s.due.sum + a ≤ maxI128 := by
  have hdue := (s.confirm h).due_le
  rwa [confirm, List.sum_append, List.sum_singleton] at hdue

/-! ### Marks -/

section Marks
variable {M : Type} (mk : ℤ → Bool → Bool → M)

/-- The stored list: each amount with its flags for `confirmed` and `claimed`. -/
def marks : List M :=
  s.paid.map (mk · true true) ++ (s.due.map (mk · true false) ++ s.ahead.map (mk · false false))

theorem marks_start {amounts : List ℤ} (hp : ∀ x ∈ amounts, 0 < x) (hf : amounts.sum ≤ maxI128) :
    (start amounts hp hf).marks mk = amounts.map (mk · false false) := by
  simp [marks, start]

/-- Setting the claimed flag of every confirmed amount pays what is due. -/
theorem marks_settle {f : M → M} (hopen : ∀ x, f (mk x false false) = mk x false false)
    (hconf : ∀ x c, f (mk x true c) = mk x true true) :
    (s.marks mk).map f = s.settle.marks mk := by
  simp [marks, settle, Function.comp_def, hopen, hconf]

variable {mk} {confirmed : M → Bool} (hconfirmed : ∀ x b c, confirmed (mk x b c) = b)
include hconfirmed

/-- An unconfirmed amount with only confirmed ones before it is the next one. -/
theorem next_of_confirmed {i : ℕ} {m : M} (hm : (s.marks mk)[i]? = some m)
    (hun : confirmed m = false) (hbefore : ∀ x ∈ (s.marks mk).take i, confirmed x = true) :
    ∃ a rest, ∃ h : s.ahead = a :: rest, m = mk a false false ∧
      (s.marks mk).set i (mk a true false) = (s.confirm h).marks mk := by
  obtain ⟨front, hfront⟩ : ∃ front, front =
    s.paid.map (mk · true true) ++ s.due.map (mk · true false) := ⟨_, rfl⟩
  have hsplit : s.marks mk = front ++ s.ahead.map (mk · false false) := by simp [marks, hfront]
  have hi : i = front.length := by
    rw [hsplit] at hm hbefore
    refine eq_length_of_first (fun x hx => ?_) (fun x hx => ?_) hm hun hbefore
    · simp only [hfront, List.mem_append, List.mem_map] at hx
      rcases hx with ⟨y, -, rfl⟩ | ⟨y, -, rfl⟩ <;> exact hconfirmed _ _ _
    · obtain ⟨y, -, rfl⟩ := List.mem_map.mp hx
      exact hconfirmed _ _ _
  rw [hsplit, hi, List.getElem?_append_right le_rfl, Nat.sub_self] at hm
  obtain ⟨a, rest, hahead⟩ : ∃ a rest, s.ahead = a :: rest := by
    refine List.exists_cons_of_ne_nil fun hnil => ?_
    simp [hnil] at hm
  obtain rfl : mk a false false = m := by simpa [hahead] using hm
  refine ⟨a, rest, hahead, rfl, ?_⟩
  rw [hsplit, hi, List.set_append_right _ _ le_rfl, Nat.sub_self, hahead, List.map_cons,
    List.set_cons_zero, hfront]
  simp [marks, confirm]

end Marks

end Schedule

end RefractContracts.Grants
