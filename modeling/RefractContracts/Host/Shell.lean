import Mathlib.Tactic

/-! How a POSIX shell splits a line into words. The line is read character by character; the
characters of a word are plain, quoted, or removed with the quotes. A line that is no single
simple command has no words, and neither has one whose words depend on where it is run: by an
expansion, a pattern or a leading tilde. A line is written word by word, each as it is or
between double quotes, and is read back exactly when every word can stand as it was written. -/

namespace RefractContracts.Host.Shell

/-! ### Reading -/

def apostrophe : Char := Char.ofNat 39

def doubleQuote : Char := Char.ofNat 34

def backquote : Char := Char.ofNat 96

def IsBlank (c : Char) : Prop := c = ' ' ∨ c = '\t'

/-- A newline or a semicolon ends the command. -/
def IsEnd (c : Char) : Prop := c = '\n' ∨ c = ';'

/-- The other operators, and what an expansion starts with; of a `$` without one the result is
unspecified. -/
def IsActive (c : Char) : Prop := c ∈ ['|', '&', '<', '>', '(', ')', '$', backquote]

/-- What a backslash escapes between double quotes. -/
def IsEscapable (c : Char) : Prop := c ∈ ['$', backquote, doubleQuote, '\\', '\n']

instance (c : Char) : Decidable (IsBlank c) := inferInstanceAs (Decidable (_ ∨ _))

instance (c : Char) : Decidable (IsEnd c) := inferInstanceAs (Decidable (_ ∨ _))

instance (c : Char) : Decidable (IsActive c) := inferInstanceAs (Decidable (_ ∈ _))

instance (c : Char) : Decidable (IsEscapable c) := inferInstanceAs (Decidable (_ ∈ _))

-- only the characters at hand are tried
instance (next : Option Char) : Decidable (∃ d ∈ next, IsEscapable d) :=
    Option.decidableExistsMem ..

instance (next : Option Char) : Decidable (∃ d ∈ next, ¬ IsEscapable d) :=
  Option.decidableExistsMem ..

inductive Kind where
  | plain
  | quoted
  | removed
  deriving DecidableEq

/-- A character of a word. -/
structure Piece where
  char : Char
  kind : Kind
  deriving DecidableEq

/-- How the next character of a word is quoted. -/
inductive Quote where
  | unquoted
  | escaped
  | single
  | double
  | doubleEscaped
  deriving DecidableEq

inductive Mode where
  | between
  /-- After the backslash of a line continuation between words. -/
  | continuing
  | word (q : Quote)
  | comment
  /-- The command has ended. -/
  | ended
  deriving DecidableEq

/-- What the reader does with a character. -/
inductive Action where
  | skip (mode : Mode)
  | piece (kind : Kind) (q : Quote)
  | endWord (mode : Mode)
  | fail

/-- A character in a word, and the one after it. -/
def wordAction (q : Quote) (c : Char) (next : Option Char) : Action :=
  match q with
  | .unquoted =>
    if IsBlank c then .endWord .between
    else if IsEnd c then .endWord .ended
    else if IsActive c then .fail
    else if c = '\\' then if next = none then .fail else .piece .removed .escaped
    else if c = doubleQuote then .piece .removed .double
    else if c = apostrophe then .piece .removed .single
    else .piece .plain .unquoted
  | .escaped => if c = '\n' then .piece .removed .unquoted else .piece .quoted .unquoted
  | .single => if c = apostrophe then .piece .removed .unquoted else .piece .quoted .single
  | .double =>
    if c = doubleQuote then .piece .removed .unquoted
    else if c = '$' ∨ c = backquote then .fail
    else if c = '\\' ∧ ∃ d ∈ next, IsEscapable d then .piece .removed .doubleEscaped
    else .piece .quoted .double
  | .doubleEscaped => if c = '\n' then .piece .removed .double else .piece .quoted .double

def action (mode : Mode) (c : Char) (next : Option Char) : Action :=
  match mode with
  | .between =>
    if IsBlank c then .skip .between
    else if IsEnd c then .skip .ended
    else if c = '#' then .skip .comment
    else if c = '\\' ∧ next = some '\n' then .skip .continuing
    else wordAction .unquoted c next
  | .continuing => .skip .between
  | .word q => wordAction q c next
  | .comment => if c = '\n' then .skip .ended else .skip .comment
  | .ended =>
    if IsBlank c ∨ c = '\n' then .skip .ended
    else if c = '#' then .skip .comment
    else .fail

/-- Put a piece before the first word. -/
def addPiece (p : Piece) : List (List Piece) → Option (List (List Piece))
  | [] => none
  | w :: ws => some ((p :: w) :: ws)

/-- The words of a line; within a word the first one is the rest of it. -/
def read : Mode → List Char → Option (List (List Piece))
  | .word .unquoted, [] => some [[]]
  | .word _, [] => none
  | .continuing, [] => none
  | _, [] => some []
  | mode, c :: s =>
    match action mode c s.head? with
    | .skip mode => read mode s
    | .piece kind q => (read (.word q) s).bind (addPiece ⟨c, kind⟩)
    | .endWord mode => (read mode s).map ([] :: ·)
    | .fail => none

/-! ### Words -/

/-- The text of a word without its quotes. -/
def text (w : List Piece) : List Char := (w.filter (·.kind ≠ .removed)).map Piece.char

/-- A bracket expression goes on to its closing bracket; no slash is in it. -/
def closesBracket : List Piece → Bool
  | [] => false
  | p :: w => p.char ≠ '/' ∧ (p = ⟨']', .plain⟩ ∨ closesBracket w)

/-- A bracket expression has a member, after the mark of its complement. -/
def isBracket : List Piece → Bool
  | [] => false
  | p :: w =>
    if p = ⟨'!', .plain⟩ then
      match w with
      | [] => false
      | member :: w => member.char ≠ '/' ∧ closesBracket w
    else p.char ≠ '/' ∧ closesBracket w

/-- A file name pattern, in a word without its quotes. -/
def isPattern : List Piece → Bool
  | [] => false
  | p :: w => p = ⟨'*', .plain⟩ ∨ p = ⟨'?', .plain⟩ ∨
    (p = ⟨'[', .plain⟩ ∧ isBracket w) ∨ isPattern w

/-- A word that depends on the files or the users there are. -/
def isOpen (w : List Piece) : Bool :=
  let w := w.filter (·.kind ≠ .removed)
  w.head? = some ⟨'~', .plain⟩ ∨ isPattern w

/-- The words of a line that is one simple command, whatever it is run in. -/
def words (s : List Char) : Option (List (List Char)) :=
  (read .between s).bind fun ws => if ws.any isOpen then none else some (ws.map text)

/-! ### One word -/

section Word
variable {q : Quote} {c : Char} {next : Option Char} {kind : Kind} {q' : Quote}
variable {s t a : List Char} {w : List Piece} {ws : List (List Piece)}

/-- A word ends at the end of the line, at a blank or with the command. -/
def Delimited (t : List Char) : Prop := ∀ c ∈ t.head?, IsBlank c ∨ IsEnd c

/-- The pieces a word can go on with under a quote. -/
def Spelled : Quote → List Piece → Prop
  | q, [] => q = .unquoted
  | q, p :: w => ∃ next q', wordAction q p.char next = .piece p.kind q' ∧
      (∀ p' ∈ w.head?, next = some p'.char) ∧ Spelled q' w

/-- How many pieces are removed. -/
def marks (w : List Piece) : ℕ := w.countP (·.kind = .removed)

theorem read_cons (mode : Mode) (c : Char) (s : List Char) :
    read mode (c :: s) = match action mode c s.head? with
      | .skip mode => read mode s
      | .piece kind q => (read (.word q) s).bind (addPiece ⟨c, kind⟩)
      | .endWord mode => (read mode s).map ([] :: ·)
      | .fail => none := by
  cases mode with
  | word q => cases q <;> rfl
  | _ => rfl

/-- After the command there are no more words. -/
theorem read_over {mode : Mode} (hmode : mode = .comment ∨ mode = .ended)
    (h : read mode s = some ws) : ws = [] := by
  induction s generalizing mode with
  | nil => rcases hmode with rfl | rfl <;> exact (Option.some.inj h).symm
  | cons c s ih =>
    rw [read_cons] at h
    rcases hmode with rfl | rfl
    · simp only [action] at h
      split_ifs at h
      · exact ih (.inr rfl) h
      · exact ih (.inl rfl) h
    · simp only [action] at h
      split_ifs at h
      · exact ih (.inr rfl) h
      · exact ih (.inl rfl) h

theorem bind_addPiece {o : Option (List (List Piece))} {p : Piece} :
    o.bind (addPiece p) = some ws ↔ ∃ w ws', o = some (w :: ws') ∧ ws = (p :: w) :: ws' := by
  rcases o with _ | _ | ⟨w, ws'⟩
  · simp
  · simp [addPiece]
  · simp [addPiece, eq_comm]

/-- Between words a character that starts none is skipped or ends the command. -/
theorem wordAction_endWord {mode : Mode} (h : wordAction q c next = .endWord mode) :
    q = .unquoted ∧ (IsBlank c ∧ mode = .between ∨ IsEnd c ∧ mode = .ended) := by
  cases q with
  | unquoted =>
    simp only [wordAction] at h
    split_ifs at h with hblank hend <;> cases h
    · exact ⟨rfl, .inl ⟨hblank, rfl⟩⟩
    · exact ⟨rfl, .inr ⟨hend, rfl⟩⟩
  | escaped | single | double | doubleEscaped =>
    simp only [wordAction] at h
    split_ifs at h

theorem wordAction_ne_skip {mode : Mode} : wordAction q c next ≠ .skip mode := by
  intro h
  cases q <;> simp only [wordAction] at h <;> split_ifs at h

theorem not_isBlank_of_isEnd (h : IsEnd c) : ¬ IsBlank c := by
  rcases h with rfl | rfl <;> decide

/-- Where a word ends, reading goes on between words. -/
theorem read_between_endWord {mode : Mode} (h : wordAction q c next = .endWord mode)
    (hread : read mode s = some ws) : read .between (c :: s) = some ws := by
  rw [read_cons, action]
  rcases (wordAction_endWord h).2 with ⟨hblank, rfl⟩ | ⟨hend, rfl⟩
  · rw [if_pos hblank]
    exact hread
  · rw [if_neg (not_isBlank_of_isEnd hend), if_pos hend]
    exact hread

/-- A word that is read is spelled out, and the line goes on after it. -/
theorem read_word (h : read (.word q) s = some ws) :
    ∃ w ws' t, ws = w :: ws' ∧ s = w.map Piece.char ++ t ∧ Spelled q w ∧ Delimited t ∧
      read .between t = some ws' := by
  induction s generalizing q ws with
  | nil =>
    cases q <;> cases h
    exact ⟨[], [], [], rfl, rfl, rfl, nofun, rfl⟩
  | cons c s ih =>
    rw [read_cons, action] at h
    cases haction : wordAction q c s.head? with
    | skip mode => exact absurd haction wordAction_ne_skip
    | fail => simp [haction] at h
    | endWord mode =>
      simp only [haction, Option.map_eq_some_iff] at h
      obtain ⟨ws', hread, rfl⟩ := h
      obtain ⟨rfl, hc⟩ := wordAction_endWord haction
      refine ⟨[], ws', c :: s, rfl, rfl, rfl, ?_, read_between_endWord haction hread⟩
      rintro _ ⟨⟩
      exact hc.imp And.left And.left
    | piece kind q' =>
      simp only [haction, bind_addPiece] at h
      obtain ⟨w, ws', hread, rfl⟩ := h
      obtain ⟨_, _, t, heq, rfl, hspell, hdelim, hrest⟩ := ih hread
      cases heq
      refine ⟨⟨c, kind⟩ :: w, ws', t, rfl, rfl, ⟨_, q', haction, ?_, hspell⟩, hdelim, hrest⟩
      cases w with
      | nil => exact nofun
      | cons p w =>
        rintro _ ⟨⟩
        rfl

/-- What is skipped before a word. -/
def IsSkipped (s : List Char) : Prop := ∀ c ∈ s, c ∈ [' ', '\t', '\\', '\n']

/-- What may start a word. -/
def IsStart (c : Char) : Prop := c ≠ '#' ∧ ¬ IsBlank c ∧ ¬ IsEnd c

instance (c : Char) : Decidable (IsStart c) := inferInstanceAs (Decidable (_ ∧ _))

/-- A line goes on with the word `w` after what is skipped, and then with `t`. -/
structure Leads (s : List Char) (w : List Piece) (ws : List (List Piece))
    (skipped t : List Char) : Prop where
  line : s = skipped ++ w.map Piece.char ++ t
  skipped : IsSkipped skipped
  start : ∃ p w', w = p :: w' ∧ IsStart p.char
  spelled : Spelled .unquoted w
  delimited : Delimited t
  rest : read .between t = some ws

theorem Leads.cons {skipped : List Char} (h : Leads s w ws skipped t)
    (hc : c ∈ [' ', '\t', '\\', '\n']) : Leads (c :: s) w ws (c :: skipped) t where
  line := by rw [h.line]; rfl
  skipped := List.forall_mem_cons.mpr ⟨hc, h.skipped⟩
  start := h.start
  spelled := h.spelled
  delimited := h.delimited
  rest := h.rest

theorem leads_of_start (hc : IsStart c) (h : read (.word .unquoted) (c :: s) = some (w :: ws)) :
    ∃ t, Leads (c :: s) w ws [] t := by
  obtain ⟨_, _, t, heq, hline, hspell, hdelim, hrest⟩ := read_word h
  cases heq
  refine ⟨t, hline, nofun, ?_, hspell, hdelim, hrest⟩
  cases w with
  | nil =>
    rw [List.map_nil, List.nil_append] at hline
    subst hline
    exact absurd (hdelim c rfl) (not_or.mpr hc.2)
  | cons p w =>
    obtain ⟨rfl, -⟩ := List.cons.inj hline
    exact ⟨p, w, rfl, hc⟩

/-- Between words a line leads to its next word. -/
theorem read_leads {mode : Mode}
    (hmode : mode = .between ∨ mode = .continuing ∧ s.head? = some '\n')
    (h : read mode s = some (w :: ws)) : ∃ skipped t, Leads s w ws skipped t := by
  induction s generalizing mode with
  | nil => rcases hmode with rfl | ⟨rfl, -⟩ <;> cases h
  | cons c s ih =>
    rw [read_cons] at h
    rcases hmode with rfl | ⟨rfl, hc⟩
    · simp only [action] at h
      split_ifs at h with hblank hend hhash hcontinued
      · obtain ⟨skipped, t, hleads⟩ := ih (.inl rfl) h
        refine ⟨_, t, hleads.cons ?_⟩
        rcases hblank with rfl | rfl <;> decide
      · cases read_over (.inr rfl) h
      · cases read_over (.inl rfl) h
      · obtain ⟨skipped, t, hleads⟩ := ih (.inr ⟨rfl, hcontinued.2⟩) h
        refine ⟨_, t, hleads.cons ?_⟩
        rw [hcontinued.1]
        decide
      · obtain ⟨t, hleads⟩ := leads_of_start ⟨hhash, hblank, hend⟩ ((read_cons _ _ _).trans h)
        exact ⟨[], t, hleads⟩
    · simp only [action] at h
      obtain ⟨skipped, t, hleads⟩ := ih (.inl rfl) h
      refine ⟨_, t, hleads.cons ?_⟩
      rw [Option.some.inj hc]
      decide

/-! ### Marks -/

@[simp] theorem marks_cons (p : Piece) (w : List Piece) :
    marks (p :: w) = marks w + if p.kind = .removed then 1 else 0 := by
  simp [marks, List.countP_cons]

theorem length_text (w : List Piece) : (text w).length + marks w = w.length := by
  induction w with
  | nil => rfl
  | cons p w ih =>
    have htext : (text (p :: w)).length = (text w).length + if p.kind = .removed then 0 else 1 := by
      simp only [text, List.filter_cons, List.length_map]
      split_ifs <;> simp_all
    rw [marks_cons, htext, List.length_cons, ← ih]
    split_ifs <;> omega

/-- A character that stands for itself in a word without quotes. -/
def IsOrdinary (c : Char) : Prop :=
  ¬ IsBlank c ∧ ¬ IsEnd c ∧ ¬ IsActive c ∧ c ∉ ['\\', doubleQuote, apostrophe]

instance (c : Char) : Decidable (IsOrdinary c) := inferInstanceAs (Decidable (_ ∧ _))

instance (a : List Char) : Decidable (∀ c ∈ a, IsOrdinary c) := List.decidableBAll ..

theorem wordAction_unquoted (h : wordAction .unquoted c next = .piece kind q') :
    kind = .removed ∨ kind = .plain ∧ q' = .unquoted ∧ IsOrdinary c := by
  simp only [wordAction] at h
  split_ifs at h with hblank hend hactive hslash hnext hdouble hsingle <;> cases h
  · exact .inl rfl
  · exact .inl rfl
  · exact .inl rfl
  · exact .inr ⟨rfl, rfl, hblank, hend, hactive, by simp [hslash, hdouble, hsingle]⟩

theorem wordAction_double (h : wordAction .double c next = .piece kind q') :
    (c = doubleQuote ∧ kind = .removed ∧ q' = .unquoted) ∨
    (kind = .removed ∧ q' = .doubleEscaped) ∨
    (kind = .quoted ∧ q' = .double ∧ c ≠ doubleQuote ∧ c ≠ '$' ∧ c ≠ backquote ∧
      ¬ (c = '\\' ∧ ∃ d ∈ next, IsEscapable d)) := by
  simp only [wordAction] at h
  split_ifs at h with hdouble hactive hslash <;> cases h
  · exact .inl ⟨hdouble, rfl, rfl⟩
  · exact .inr (.inl ⟨rfl, rfl⟩)
  · obtain ⟨hdollar, hback⟩ := not_or.mp hactive
    exact .inr (.inr ⟨rfl, rfl, hdouble, hdollar, hback, hslash⟩)

theorem wordAction_doubleEscaped (h : wordAction .doubleEscaped c next = .piece kind q') :
    q' = .double := by
  simp only [wordAction] at h
  split_ifs at h <;> cases h <;> rfl

/-- Without marks nothing is quoted. -/
theorem Spelled.plain (h : Spelled .unquoted w) (hmarks : marks w = 0) :
    w = (w.map Piece.char).map (⟨·, .plain⟩) ∧ ∀ c ∈ w.map Piece.char, IsOrdinary c := by
  induction w with
  | nil => exact ⟨rfl, nofun⟩
  | cons p w ih =>
    obtain ⟨next, q', haction, -, hspell⟩ := h
    rw [marks_cons] at hmarks
    rcases wordAction_unquoted haction with hkind | ⟨hkind, rfl, hc⟩
    · rw [if_pos hkind] at hmarks
      cases hmarks
    · obtain ⟨hw, hordinary⟩ := ih hspell (Nat.eq_zero_of_add_eq_zero hmarks).1
      rw [List.map_cons, List.map_cons, ← hw, ← hkind]
      exact ⟨rfl, List.forall_mem_cons.mpr ⟨hc, hordinary⟩⟩

/-- Double quotes are closed. -/
theorem Spelled.marks_pos (h : Spelled q w) (hq : q = .double ∨ q = .doubleEscaped) :
    0 < marks w := by
  induction w generalizing q with
  | nil =>
    cases h
    rcases hq with hq | hq <;> cases hq
  | cons p w ih =>
    obtain ⟨next, q', haction, -, hspell⟩ := h
    rw [marks_cons]
    rcases hq with rfl | rfl
    · rcases wordAction_double haction with ⟨-, hkind, -⟩ | ⟨hkind, -⟩ | ⟨-, rfl, -⟩
      · rw [if_pos hkind]
        exact Nat.succ_pos _
      · rw [if_pos hkind]
        exact Nat.succ_pos _
      · exact Nat.add_pos_left (ih hspell (.inl rfl)) _
    · exact Nat.add_pos_left (ih hspell (.inl (wordAction_doubleEscaped haction))) _

/-- Text that stands for itself between double quotes. -/
def Enclosable : List Char → Prop
  | [] => True
  | c :: s => c ≠ doubleQuote ∧ c ≠ '$' ∧ c ≠ backquote ∧
      (c = '\\' → ∃ d ∈ s.head?, ¬ IsEscapable d) ∧ Enclosable s

instance decidableEnclosable : DecidablePred Enclosable
  | [] => .isTrue trivial
  | _ :: s =>
    have := decidableEnclosable s
    inferInstanceAs (Decidable (_ ∧ _ ∧ _ ∧ _ ∧ _))

theorem not_isOrdinary_doubleQuote : ¬ IsOrdinary doubleQuote := by decide

/-- What is quoted with the closing quote as its only mark stands for itself. -/
theorem Spelled.enclosable (h : Spelled .double w) (hmarks : marks w = 1)
    (hchars : w.map Piece.char = a ++ [doubleQuote]) : Enclosable a := by
  induction a generalizing w with
  | nil => trivial
  | cons c a ih =>
    obtain ⟨p, w, rfl, rfl, hw⟩ := List.map_eq_cons_iff.mp hchars
    obtain ⟨next, q', haction, hnext, hspell⟩ := h
    rw [marks_cons] at hmarks
    rcases wordAction_double haction with ⟨-, hkind, rfl⟩ | ⟨hkind, rfl⟩ | ⟨hkind, rfl, hc⟩
    · rw [if_pos hkind] at hmarks
      have hordinary := (hspell.plain (Nat.succ.inj hmarks)).2 doubleQuote (by simp [hw])
      exact absurd hordinary not_isOrdinary_doubleQuote
    · rw [if_pos hkind] at hmarks
      exact absurd (Nat.succ.inj hmarks) (hspell.marks_pos (.inr rfl)).ne'
    · rw [hkind, if_neg nofun] at hmarks
      refine ⟨hc.1, hc.2.1, hc.2.2.1, fun hslash => ?_, ih hspell hmarks hw⟩
      cases a with
      | nil =>
        obtain ⟨p', w, rfl, hp', -⟩ := List.map_eq_cons_iff.mp hw
        have hmem : doubleQuote ∈ next := by rw [hnext p' rfl, hp']; rfl
        exact absurd ⟨hslash, doubleQuote, hmem, by decide⟩ hc.2.2.2
      | cons d a =>
        obtain ⟨p', w, rfl, hp', -⟩ := List.map_eq_cons_iff.mp hw
        have hmem : d ∈ next := by rw [hnext p' rfl, hp']; rfl
        exact ⟨d, rfl, fun hesc => hc.2.2.2 ⟨hslash, d, hmem, hesc⟩⟩

/-- A word with a delimiter in its text has a mark. -/
theorem Spelled.marks_pos_of_mem (h : Spelled .unquoted w) (hmem : c ∈ text w)
    (hc : IsBlank c ∨ IsEnd c) : 0 < marks w := by
  by_contra hmarks
  have hordinary := (h.plain (Nat.eq_zero_of_not_pos hmarks)).2 c ?_
  · exact hc.elim hordinary.1 hordinary.2.1
  · obtain ⟨p, hp, rfl⟩ := List.mem_map.mp hmem
    exact List.mem_map_of_mem (List.mem_of_mem_filter hp)

/-- A word that starts with a double quote has two marks. -/
theorem Spelled.of_doubleQuote {p : Piece} (h : Spelled .unquoted (p :: w))
    (hp : p.char = doubleQuote) : Spelled .double w ∧ p.kind = .removed := by
  obtain ⟨next, q', haction, -, hspell⟩ := h
  rw [hp] at haction
  have hdouble : wordAction .unquoted doubleQuote next = .piece .removed .double := rfl
  rw [hdouble] at haction
  obtain ⟨hkind, rfl⟩ := Action.piece.inj haction
  exact ⟨hspell, hkind.symm⟩

end Word

/-! ### Lines -/

/-- A word as it is written, as it is or between double quotes. -/
structure Part where
  value : List Char
  enclosed : Bool

def Part.source (p : Part) : List Char :=
  if p.enclosed then doubleQuote :: p.value ++ [doubleQuote] else p.value

/-- Words with a blank before each. -/
def line (ps : List Part) : List Char := ps.flatMap fun p => ' ' :: p.source

/-- Text that stands for itself as a word without quotes. -/
def Bare (a : List Char) : Prop :=
  a ≠ [] ∧ (∀ c ∈ a, IsOrdinary c) ∧ a.head? ≠ some '#' ∧ isOpen (a.map (⟨·, .plain⟩)) = false

instance (a : List Char) : Decidable (Bare a) := inferInstanceAs (Decidable (_ ∧ _ ∧ _ ∧ _))

/-- A word that can stand as it is written. -/
def Part.Safe (p : Part) : Prop := if p.enclosed then Enclosable p.value else Bare p.value

section Line
variable {p : Part} {ps : List Part} {s t x y a : List Char} {w : List Piece}
variable {ws : List (List Piece)}

theorem Leads.skipped_ne_nil {skipped : List Char} (h : Leads y w ws skipped t)
    (hy : Delimited y) : skipped ≠ [] := by
  rintro rfl
  obtain ⟨p, w', rfl, hp⟩ := h.start
  have hhead := hy p.char (by rw [h.line]; rfl)
  exact absurd hhead (not_or.mpr hp.2)

/-- A word from the opening double quote of a part on has its two marks. -/
theorem Leads.two_le_marks {skipped : List Char} (h : Leads y w ws skipped t)
    (hw : w.map Piece.char ++ t = doubleQuote :: s) : 2 ≤ marks w := by
  obtain ⟨p, w', rfl, -⟩ := h.start
  obtain ⟨hp, -⟩ := List.cons.inj hw
  obtain ⟨hspell, hkind⟩ := h.spelled.of_doubleQuote hp
  have hpos := hspell.marks_pos (.inl rfl)
  rw [marks_cons, if_pos hkind]
  omega

/-- A part with a delimiter is enclosed. -/
def Part.Quoted (p : Part) : Prop := p.enclosed → ∃ c ∈ p.value, IsBlank c ∨ IsEnd c

section Step
variable {skipped rest : List Char}

theorem Leads.lengths (h : Leads y w ws skipped t) (hline : ' ' :: p.source ++ rest = x ++ y)
    (hw : text w = p.value) : 1 + p.source.length + rest.length =
      x.length + skipped.length + (p.value.length + marks w) + t.length := by
  have hlength := congrArg List.length hline
  rw [h.line] at hlength
  simp only [List.cons_append, List.length_append, List.length_cons, List.length_map,
    ← length_text w, hw] at hlength
  omega

theorem Part.length_source (p : Part) :
    p.source.length = p.value.length + if p.enclosed then 2 else 0 := by
  rw [source]
  split_ifs <;> simp

/-- A word that is read from a part on uses up the part. -/
theorem Leads.length_le (h : Leads y w ws skipped t) (hy : Delimited y)
    (hline : ' ' :: p.source ++ rest = x ++ y) (hw : text w = p.value) (hp : p.Quoted) :
    t.length ≤ rest.length := by
  by_contra hlt
  have hskipped := List.length_pos_iff.mpr (h.skipped_ne_nil hy)
  have hlengths := h.lengths hline hw
  rw [p.length_source] at hlengths
  cases henclosed : p.enclosed with
  | false =>
    rw [henclosed, if_neg nofun] at hlengths
    omega
  | true =>
    rw [if_pos henclosed] at hlengths
    obtain ⟨c, hc, hdelim⟩ := hp henclosed
    have hpos := h.spelled.marks_pos_of_mem (hw ▸ hc) hdelim
    -- one blank, one mark and the closing quote is all there is room for
    obtain rfl : x = [] := List.eq_nil_of_length_eq_zero (by omega)
    obtain ⟨b, rfl⟩ := List.length_eq_one_iff.mp (show skipped.length = 1 by omega)
    rw [h.line, Part.source, if_pos henclosed] at hline
    have htwo := h.two_le_marks (List.cons.inj hline).2.symm
    omega

/-- A word without quotes that uses the part exactly. -/
theorem Leads.bare (h : Leads y w ws skipped t) (hw : w.map Piece.char = a) (hmarks : marks w = 0)
    (hopen : isOpen w = false) : Bare a := by
  obtain ⟨hplain, hordinary⟩ := h.spelled.plain hmarks
  subst hw
  refine ⟨?_, hordinary, ?_, by rwa [← hplain]⟩
  · obtain ⟨p, w', rfl, -⟩ := h.start
    exact List.cons_ne_nil _ _
  · obtain ⟨p, w', rfl, hp⟩ := h.start
    exact fun hhash => hp.1 (Option.some.inj hhash)

theorem Leads.enclosable (h : Leads y w ws skipped t)
    (hw : w.map Piece.char = doubleQuote :: a ++ [doubleQuote]) (hmarks : marks w = 2) :
    Enclosable a := by
  obtain ⟨p, w', rfl, -⟩ := h.start
  obtain ⟨hp, hw'⟩ := List.cons.inj hw
  obtain ⟨hspell, hkind⟩ := h.spelled.of_doubleQuote hp
  rw [marks_cons, if_pos hkind] at hmarks
  exact hspell.enclosable (Nat.succ.inj hmarks) hw'

theorem Leads.safe (h : Leads y w ws skipped rest) (hy : Delimited y)
    (hline : ' ' :: p.source ++ rest = x ++ y) (hw : text w = p.value) (hp : p.Quoted)
    (hopen : isOpen w = false) : x = [] ∧ p.Safe := by
  have hskipped := List.length_pos_iff.mpr (h.skipped_ne_nil hy)
  have hlengths := h.lengths hline hw
  rw [p.length_source] at hlengths
  rw [h.line, ← List.append_assoc, ← List.append_assoc] at hline
  have huse := List.append_cancel_right hline
  cases henclosed : p.enclosed with
  | false =>
    rw [henclosed, if_neg nofun] at hlengths
    obtain rfl : x = [] := List.eq_nil_of_length_eq_zero (by omega)
    obtain ⟨b, rfl⟩ := List.length_eq_one_iff.mp (show skipped.length = 1 by omega)
    rw [Part.source, henclosed] at huse
    refine ⟨rfl, ?_⟩
    rw [Part.Safe, henclosed]
    exact h.bare (List.cons.inj huse).2.symm (by omega) hopen
  | true =>
    rw [if_pos henclosed] at hlengths
    obtain ⟨c, hc, hdelim⟩ := hp henclosed
    have hpos := h.spelled.marks_pos_of_mem (hw ▸ hc) hdelim
    rw [Part.source, if_pos henclosed] at huse
    by_cases hone : x.length + skipped.length = 1
    · obtain rfl : x = [] := List.eq_nil_of_length_eq_zero (by omega)
      obtain ⟨b, rfl⟩ := List.length_eq_one_iff.mp (show skipped.length = 1 by omega)
      refine ⟨rfl, ?_⟩
      rw [Part.Safe, if_pos henclosed]
      exact h.enclosable (List.cons.inj huse).2.symm (by omega)
    · -- the opening quote is not skipped
      have hsplit : [' ', doubleQuote] ++ (p.value ++ [doubleQuote]) =
          (x ++ skipped) ++ w.map Piece.char := huse
      have htwo : [' ', doubleQuote] = x ++ skipped := by
        refine List.append_inj_left hsplit ?_
        rw [List.length_append]
        simp only [List.length_cons, List.length_nil]
        omega
      have hlast := congrArg List.getLast? htwo
      rw [List.getLast?_append_of_ne_nil _ (h.skipped_ne_nil hy)] at hlast
      exact absurd (h.skipped _ (List.mem_of_getLast? hlast.symm)) (by decide)

end Step

/-- A line is read back from no later point than its start, and from there only if every word
can stand as it is written. -/
theorem safe_of_read (hps : ∀ p ∈ ps, p.Quoted) (hline : line ps = x ++ y) (hy : Delimited y)
    (hread : read .between y = some ws) (hopen : ∀ w ∈ ws, isOpen w = false)
    (hws : ws.map text = ps.map Part.value) : x = [] ∧ ∀ p ∈ ps, p.Safe := by
  induction ps generalizing x y ws with
  | nil => exact ⟨(List.append_eq_nil_iff.mp hline.symm).1, nofun⟩
  | cons p ps ih =>
    obtain ⟨hp, hps⟩ := List.forall_mem_cons.mp hps
    obtain ⟨w, ws, rfl, hw, hws⟩ := List.map_eq_cons_iff.mp hws
    obtain ⟨hopenw, hopen⟩ := List.forall_mem_cons.mp hopen
    obtain ⟨skipped, t, hleads⟩ := read_leads (.inl rfl) hread
    have hline' : ' ' :: p.source ++ line ps = x ++ y := by
      rw [← hline, line, line, List.flatMap_cons]
    have hsuffix : t <:+ x ++ y := ⟨x ++ (skipped ++ w.map Piece.char), by simp [hleads.line]⟩
    obtain ⟨x', ht⟩ := List.suffix_of_suffix_length_le hsuffix ⟨_, hline'⟩
      (hleads.length_le hy hline' hw hp)
    obtain ⟨rfl, hsafe⟩ := ih hps ht.symm hleads.delimited hleads.rest hopen hws
    obtain rfl : t = line ps := ht
    obtain ⟨hx, hpsafe⟩ := hleads.safe hy hline' hw hp hopenw
    exact ⟨hx, List.forall_mem_cons.mpr ⟨hpsafe, hsafe⟩⟩

/-- The pieces a part that can stand as it is written is read as. -/
def Part.pieces (p : Part) : List Piece :=
  if p.enclosed then
    ⟨doubleQuote, .removed⟩ :: p.value.map (⟨·, .quoted⟩) ++ [⟨doubleQuote, .removed⟩]
  else p.value.map (⟨·, .plain⟩)

@[simp] theorem text_pieces (p : Part) : text p.pieces = p.value := by
  rw [Part.pieces]
  split_ifs <;> simp [text, List.filter_map, Function.comp_def]

theorem wordAction_of_isOrdinary {c : Char} (hc : IsOrdinary c) (next : Option Char) :
    wordAction .unquoted c next = .piece .plain .unquoted := by
  obtain ⟨hblank, hend, hactive, hquote⟩ := hc
  simp only [List.mem_cons, List.not_mem_nil, or_false, not_or] at hquote
  simp only [wordAction, if_neg hblank, if_neg hend, if_neg hactive, if_neg hquote.1,
    if_neg hquote.2.1, if_neg hquote.2.2]

theorem read_bare (ha : ∀ c ∈ a, IsOrdinary c) (hs : read (.word .unquoted) s = some ([] :: ws)) :
    read (.word .unquoted) (a ++ s) = some (a.map (⟨·, .plain⟩) :: ws) := by
  induction a with
  | nil => exact hs
  | cons c a ih =>
    obtain ⟨hc, ha⟩ := List.forall_mem_cons.mp ha
    rw [List.cons_append, read_cons, action, wordAction_of_isOrdinary hc]
    dsimp only
    rw [ih ha]
    rfl

theorem read_enclosed (ha : Enclosable a)
    (hs : read (.word .unquoted) s = some ([] :: ws)) :
    read (.word .double) (a ++ doubleQuote :: s) =
      some ((a.map (⟨·, .quoted⟩) ++ [⟨doubleQuote, .removed⟩]) :: ws) := by
  induction a with
  | nil =>
    rw [List.nil_append, read_cons, action, wordAction, if_pos rfl]
    dsimp only
    rw [hs]
    rfl
  | cons c a ih =>
    obtain ⟨hdouble, hdollar, hback, hslash, ha⟩ := ha
    have hescape : ¬ (c = '\\' ∧ ∃ d ∈ (a ++ doubleQuote :: s).head?, IsEscapable d) := by
      rintro ⟨hc, d, hd, hesc⟩
      obtain ⟨d', hd', hnot⟩ := hslash hc
      cases a with
      | nil => cases hd'
      | cons e a =>
        obtain rfl := Option.some.inj hd
        obtain rfl := Option.some.inj hd'
        exact hnot hesc
    rw [List.cons_append, read_cons, action, wordAction, if_neg hdouble,
      if_neg (not_or.mpr ⟨hdollar, hback⟩), if_neg hescape]
    dsimp only
    rw [ih ha]
    rfl

/-- Between words a word starts. -/
theorem read_start {c : Char} (hc : IsStart c) (hslash : c ≠ '\\') :
    read .between (c :: s) = read (.word .unquoted) (c :: s) := by
  have haction : action .between c s.head? = action (.word .unquoted) c s.head? := by
    simp only [action, if_neg hc.2.1, if_neg hc.2.2, if_neg hc.1,
      if_neg (not_and_of_not_left _ hslash)]
  rw [read_cons, read_cons, haction]

theorem read_blank : read .between (' ' :: s) = read .between s := rfl

theorem words_blank : words (' ' :: s) = words s := by rw [words, words, read_blank]

/-- A part that can stand as it is written is read, where the word then ends. -/
theorem read_part (hp : p.Safe) (hs : read (.word .unquoted) s = some ([] :: ws)) :
    read .between (' ' :: p.source ++ s) = some (p.pieces :: ws) := by
  rw [List.cons_append, read_blank]
  cases henclosed : p.enclosed with
  | false =>
    rw [Part.Safe, henclosed] at hp
    obtain ⟨hne, hordinary, hhash, -⟩ := hp
    rw [Part.source, Part.pieces, henclosed, if_neg nofun, if_neg nofun, ← read_bare hordinary hs]
    obtain ⟨c, a, ha⟩ := List.exists_cons_of_ne_nil hne
    rw [ha] at hordinary hhash ⊢
    obtain ⟨hblank, hend, -, hquote⟩ := hordinary c List.mem_cons_self
    exact read_start ⟨fun hc => hhash (hc ▸ rfl), hblank, hend⟩
      fun hc => hquote (hc ▸ List.mem_cons_self)
  | true =>
    rw [Part.Safe, if_pos henclosed] at hp
    rw [Part.source, Part.pieces, if_pos henclosed, if_pos henclosed]
    have haction : action (.word .unquoted) doubleQuote (p.value ++ doubleQuote :: s).head? =
      .piece .removed .double := rfl
    simp only [List.cons_append, List.append_assoc, List.nil_append]
    rw [read_start (by decide) (by decide), read_cons, haction]
    dsimp only
    rw [read_enclosed hp hs]
    rfl

/-- Before the rest of a line a word ends. -/
theorem read_word_line (h : read .between (line ps) = some ws) :
    read (.word .unquoted) (line ps) = some ([] :: ws) := by
  cases ps with
  | nil =>
    cases h
    rfl
  | cons p ps =>
    rw [line, List.flatMap_cons, List.cons_append] at h ⊢
    rw [read_blank] at h
    have haction : ∀ next, action (.word .unquoted) ' ' next = .endWord .between := fun _ => rfl
    rw [read_cons, haction]
    dsimp only
    rw [h]
    rfl

theorem read_line (hps : ∀ p ∈ ps, p.Safe) :
    read .between (line ps) = some (ps.map Part.pieces) := by
  induction ps with
  | nil => rfl
  | cons p ps ih =>
    obtain ⟨hp, hps⟩ := List.forall_mem_cons.mp hps
    exact read_part hp (read_word_line (ih hps))

theorem isPattern_quoted (a : List Char) : isPattern (a.map (⟨·, .quoted⟩)) = false := by
  induction a with
  | nil => rfl
  | cons c a ih => simp [isPattern, ih]

theorem Part.Safe.isOpen_pieces (hp : p.Safe) : isOpen p.pieces = false := by
  cases henclosed : p.enclosed with
  | false =>
    rw [Part.Safe, henclosed] at hp
    rw [Part.pieces, henclosed]
    exact hp.2.2.2
  | true =>
    have hfilter : p.pieces.filter (·.kind ≠ .removed) = p.value.map (⟨·, .quoted⟩) := by
      rw [Part.pieces, if_pos henclosed]
      simp [List.filter_map, Function.comp_def]
    rw [isOpen, hfilter, isPattern_quoted]
    cases p.value <;> simp

theorem delimited_line (ps : List Part) : Delimited (line ps) := by
  cases ps with
  | nil => exact nofun
  | cons p ps =>
    rintro _ ⟨⟩
    exact .inl (.inl rfl)

/-- A line of words is read back exactly if every word can stand as it is written. -/
theorem words_line_iff (hps : ∀ p ∈ ps, p.Quoted) :
    words (line ps) = some (ps.map Part.value) ↔ ∀ p ∈ ps, p.Safe := by
  constructor
  · intro h
    obtain ⟨ws, hread, hws⟩ := Option.bind_eq_some_iff.mp h
    split_ifs at hws with hopen
    rw [List.any_eq_true, not_exists] at hopen
    have hclosed : ∀ w ∈ ws, isOpen w = false := fun w hw =>
      Bool.eq_false_iff.mpr fun ho => hopen w ⟨hw, ho⟩
    exact (safe_of_read hps (List.nil_append _).symm (delimited_line ps) hread hclosed
      (Option.some.inj hws)).2
  · intro hsafe
    have hclosed : ¬ (ps.map Part.pieces).any isOpen := by
      rw [List.any_map, List.any_eq_true]
      rintro ⟨p, hp, ho⟩
      exact absurd ho (Bool.eq_false_iff.mp (hsafe p hp).isOpen_pieces)
    rw [words, read_line hsafe, Option.bind_some, if_neg hclosed, List.map_map]
    simp [Function.comp_def]

end Line

end RefractContracts.Host.Shell
