import Mathlib.Data.List.TakeWhile
import Mathlib.Tactic

/-! Terms written with brackets. A term is a word, a word applied to terms in angle brackets, or a
tuple in parentheses; the terms within are separated by commas. As no word has a bracket or a comma
in it, and no word that stands alone is followed by an angle bracket, a text is that of one term
and ends in one place. -/

namespace RefractContracts.Host

inductive Term where
  | word (w : List Char)
  | applied (w : List Char) (first : Term) (others : List Term)
  | tuple (items : List Term)

namespace Term

mutual

def text : Term → List Char
  | word w => w
  | applied w first others => w ++ '<' :: (text first ++ more '>' others)
  | tuple [] => ['(', ')']
  | tuple (first :: others) => '(' :: (text first ++ more ')' others)

/-- The terms after the first, and the bracket. -/
def more (close : Char) : List Term → List Char
  | [] => [close]
  | t :: ts => ',' :: ' ' :: (text t ++ more close ts)

end

/-- The terms are separated by commas. -/
theorem intercalate_text (close : Char) (t : Term) (ts : List Term) :
    [',', ' '].intercalate ((t :: ts).map text) ++ [close] = text t ++ more close ts := by
  induction ts generalizing t with
  | nil => simp [more]
  | cons t' ts ih =>
    rw [List.map_cons, List.map_cons, List.intercalate_cons_cons, ← List.map_cons,
      List.append_assoc, List.append_assoc, ih, more]
    rfl

section Letters
variable (letter : Char → Bool)

/-- Some letters. -/
def IsWord (w : List Char) : Prop := w ≠ [] ∧ ∀ c ∈ w, letter c = true

instance (w : List Char) : Decidable (IsWord letter w) :=
  decidable_of_iff (w ≠ [] ∧ w.all letter = true) (by rw [IsWord, List.all_eq_true])

mutual

/-- All words are words of letters. -/
def Sound : Term → Prop
  | word w => IsWord letter w
  | applied w first others => IsWord letter w ∧ Sound first ∧ AllSound others
  | tuple items => AllSound items

def AllSound : List Term → Prop
  | [] => True
  | t :: ts => Sound t ∧ AllSound ts

end

/-- What may follow a term: no letter, and no angle bracket. -/
def Stopped (s : List Char) : Prop := ∀ c ∈ s.head?, letter c = false ∧ c ≠ '<'

/-- Brackets and commas are no letters. -/
def Delimited : Prop :=
  letter '<' = false ∧ letter '>' = false ∧ letter '(' = false ∧ letter ')' = false ∧
    letter ',' = false

instance : Decidable (Delimited letter) :=
  inferInstanceAs (Decidable (letter '<' = false ∧ letter '>' = false ∧ letter '(' = false ∧
    letter ')' = false ∧ letter ',' = false))

end Letters

section Inj
variable {letter : Char → Bool} {w w' : List Char} {s s' : List Char} {t : Term} {close : Char}

theorem allSound_iff {ts : List Term} : AllSound letter ts ↔ ∀ t ∈ ts, Sound letter t := by
  induction ts with
  | nil => exact ⟨nofun, fun _ => trivial⟩
  | cons t ts ih => rw [AllSound, ih, List.forall_mem_cons]

theorem takeWhile_word (hw : IsWord letter w) (hs : ∀ c ∈ s.head?, letter c = false) :
    (w ++ s).takeWhile letter = w := by
  have hnil : s.takeWhile letter = [] := by
    cases s with
    | nil => rfl
    | cons c s => rw [List.takeWhile_cons_of_neg (by simp [hs c rfl])]
  rw [List.takeWhile_append_of_pos hw.2, hnil, List.append_nil]

theorem word_append_inj (hw : IsWord letter w) (hw' : IsWord letter w')
    (hs : ∀ c ∈ s.head?, letter c = false) (hs' : ∀ c ∈ s'.head?, letter c = false)
    (h : w ++ s = w' ++ s') : w = w' ∧ s = s' := by
  have hword : w = w' := by rw [← takeWhile_word hw hs, h, takeWhile_word hw' hs']
  subst hword
  exact ⟨rfl, List.append_cancel_left h⟩

/-- A word does not start with a bracket. -/
theorem word_ne_cons {c : Char} (hw : IsWord letter w) (hc : letter c = false) :
    w ++ s ≠ c :: s' := by
  obtain ⟨d, w, rfl⟩ := List.exists_cons_of_ne_nil hw.1
  rintro h
  obtain ⟨rfl, -⟩ := List.cons.inj h
  rw [hw.2 d List.mem_cons_self] at hc
  cases hc

theorem stopped_more (hclose : letter close = false ∧ close ≠ '<') (hcomma : letter ',' = false)
    (ts : List Term) (s : List Char) : Stopped letter (more close ts ++ s) := by
  cases ts with
  | nil =>
    rintro _ ⟨⟩
    exact hclose
  | cons t ts =>
    rintro _ ⟨⟩
    exact ⟨hcomma, by decide⟩

theorem text_ne_close (hd : Delimited letter) (ht : Sound letter t) : text t ++ s ≠ ')' :: s' := by
  cases t with
  | word w => exact word_ne_cons ht hd.2.2.2.1
  | applied w first others =>
    rw [text, List.append_assoc]
    exact word_ne_cons ht.1 hd.2.2.2.1
  | tuple items => cases items <;> exact fun h => absurd (List.cons.inj h).1 (by decide)

mutual

/-- A text that is not followed by more of a word or an angle bracket is that of one term. -/
theorem text_append_inj (hd : Delimited letter) : ∀ (t t' : Term) {s s' : List Char},
    Sound letter t → Sound letter t' → Stopped letter s → Stopped letter s' →
      text t ++ s = text t' ++ s' → t = t' ∧ s = s'
  | .word w, .word w', s, s', ht, ht', hs, hs', h => by
    obtain ⟨rfl, rfl⟩ := word_append_inj ht ht' (fun c hc => (hs c hc).1)
      (fun c hc => (hs' c hc).1) h
    exact ⟨rfl, rfl⟩
  | .word w, .applied w' first' others', s, s', ht, ht', hs, hs', h => by
    rw [text, text, List.append_assoc] at h
    obtain ⟨-, rfl⟩ := word_append_inj ht ht'.1 (fun c hc => (hs c hc).1)
      (by rintro _ ⟨⟩; exact hd.1) h
    exact absurd rfl (hs _ rfl).2
  | .word w, .tuple items', s, s', ht, ht', hs, hs', h => by
    cases items' <;> exact absurd h (word_ne_cons ht hd.2.2.1)
  | .applied w first others, .word w', s, s', ht, ht', hs, hs', h => by
    rw [text, text, List.append_assoc] at h
    obtain ⟨-, rfl⟩ := word_append_inj ht.1 ht' (by rintro _ ⟨⟩; exact hd.1)
      (fun c hc => (hs' c hc).1) h
    exact absurd rfl (hs' _ rfl).2
  | .applied w first others, .applied w' first' others', s, s', ht, ht', hs, hs', h => by
    rw [text, text, List.append_assoc, List.append_assoc] at h
    obtain ⟨rfl, hargs⟩ := word_append_inj ht.1 ht'.1 (by rintro _ ⟨⟩; exact hd.1)
      (by rintro _ ⟨⟩; exact hd.1) h
    rw [List.cons_append, List.cons_append, List.cons.injEq, List.append_assoc,
      List.append_assoc] at hargs
    have hstop (ts : List Term) (s : List Char) : Stopped letter (more '>' ts ++ s) :=
      stopped_more ⟨hd.2.1, by decide⟩ hd.2.2.2.2 ts s
    obtain ⟨rfl, hmore⟩ := text_append_inj hd first first' ht.2.1 ht'.2.1 (hstop others s)
      (hstop others' s') hargs.2
    obtain ⟨rfl, rfl⟩ := more_append_inj hd ⟨hd.2.1, by decide⟩ (by decide) others others' ht.2.2
      ht'.2.2 hmore
    exact ⟨rfl, rfl⟩
  | .applied w first others, .tuple items', s, s', ht, ht', hs, hs', h => by
    rw [text, List.append_assoc] at h
    cases items' <;> exact absurd h (word_ne_cons ht.1 hd.2.2.1)
  | .tuple items, .word w', s, s', ht, ht', hs, hs', h => by
    cases items <;> exact absurd h.symm (word_ne_cons ht' hd.2.2.1)
  | .tuple items, .applied w' first' others', s, s', ht, ht', hs, hs', h => by
    rw [text.eq_def (.applied w' first' others'), List.append_assoc] at h
    cases items <;> exact absurd h.symm (word_ne_cons ht'.1 hd.2.2.1)
  | .tuple [], .tuple [], s, s', ht, ht', hs, hs', h => ⟨rfl, List.append_cancel_left h⟩
  | .tuple [], .tuple (t' :: ts'), s, s', ht, ht', hs, hs', h => by
    have htail : (text t' ++ more ')' ts') ++ s' = ')' :: s := (List.cons.inj h).2.symm
    rw [List.append_assoc] at htail
    exact absurd htail (text_ne_close hd ht'.1)
  | .tuple (t :: ts), .tuple [], s, s', ht, ht', hs, hs', h => by
    have htail : (text t ++ more ')' ts) ++ s = ')' :: s' := (List.cons.inj h).2
    rw [List.append_assoc] at htail
    exact absurd htail (text_ne_close hd ht.1)
  | .tuple (t :: ts), .tuple (t' :: ts'), s, s', ht, ht', hs, hs', h => by
    rw [text, text, List.cons_append, List.cons_append, List.append_assoc, List.append_assoc,
      List.cons.injEq] at h
    have hstop (ts : List Term) (s : List Char) : Stopped letter (more ')' ts ++ s) :=
      stopped_more ⟨hd.2.2.2.1, by decide⟩ hd.2.2.2.2 ts s
    obtain ⟨rfl, hmore⟩ := text_append_inj hd t t' ht.1 ht'.1 (hstop ts s) (hstop ts' s') h.2
    obtain ⟨rfl, rfl⟩ := more_append_inj hd ⟨hd.2.2.2.1, by decide⟩ (by decide) ts ts' ht.2 ht'.2
      hmore
    exact ⟨rfl, rfl⟩

theorem more_append_inj (hd : Delimited letter) {close : Char}
    (hclose : letter close = false ∧ close ≠ '<') (hcomma : close ≠ ',') :
    ∀ (ts ts' : List Term) {s s' : List Char}, AllSound letter ts → AllSound letter ts' →
      more close ts ++ s = more close ts' ++ s' → ts = ts' ∧ s = s'
  | [], [], s, s', _, _, h => ⟨rfl, List.append_cancel_left h⟩
  | [], t' :: ts', s, s', _, _, h => absurd (List.cons.inj h).1 hcomma
  | t :: ts, [], s, s', _, _, h => absurd (List.cons.inj h).1.symm hcomma
  | t :: ts, t' :: ts', s, s', hts, hts', h => by
    rw [more, more, List.cons_append, List.cons_append, List.cons_append, List.cons_append,
      List.append_assoc, List.append_assoc, List.cons.injEq, List.cons.injEq] at h
    have hstop := stopped_more hclose hd.2.2.2.2
    obtain ⟨rfl, hmore⟩ := text_append_inj hd t t' hts.1 hts'.1 (hstop ts s) (hstop ts' s') h.2.2
    obtain ⟨rfl, rfl⟩ := more_append_inj hd hclose hcomma ts ts' hts.2 hts'.2 hmore
    exact ⟨rfl, rfl⟩

end

/-- A term is determined by its text. -/
theorem text_inj (hd : Delimited letter) {t t' : Term} (ht : Sound letter t)
    (ht' : Sound letter t') (h : text t = text t') : t = t' := by
  have hnil : Stopped letter [] := nofun
  have happend : text t ++ [] = text t' ++ [] := by rw [h]
  exact (text_append_inj hd t t' ht ht' hnil hnil happend).1

end Inj

end Term

end RefractContracts.Host
