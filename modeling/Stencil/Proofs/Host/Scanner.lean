import Stencil.Proofs.Host.Code

/-!
# Proofs/Host/Scanner — how the host reads the characters of a statement

The host reads script in one of a few modes: as code, inside a quoted text, inside a block comment,
inside a line comment.  `Script.events` lists what happens on the way up to the end of the script:
the brackets that stand in code, where comments start and end, and where the script ends.

Generated code is put together from pieces, and a piece is known by what it does wherever it stands:
`Moves a t b` says that `t` starts and ends in code, holds no comment and no end, and takes the open
brackets `a` to `b`.  Pieces compose (`Moves.append`), so a statement moves as its parts do.
-/

namespace Stencil

namespace Script

/-! ## The scanner -/

/-- How the host reads a character. -/
inductive Mode
  | code
  /-- Inside a text in single or double quotes, where a backslash takes the next character with
  it. -/
  | quoted (quote : Char)
  /-- Inside a comment that ends at `*/`. -/
  | block
  /-- Inside a comment that ends with its line, or with the script. -/
  | line
  deriving DecidableEq, Repr

/-- A bracket: its family, and whether it opens. -/
abbrev Side := Bracket × Bool

/-- What happens while script is read. -/
inductive Event
  /-- A bracket in code. -/
  | bracket (side : Side)
  /-- A block comment starts the text `here`. -/
  | startsBlock (here : Text)
  /-- A block comment ends before the text `rest`. -/
  | endsBlock (rest : Text)
  /-- A line comment starts the text `here`. -/
  | startsLine (here : Text)
  /-- The script ends before the text `rest`. -/
  | finish (rest : Text)
  deriving DecidableEq, Repr

/-- The round and square brackets. -/
def side? (c : Char) : Option Side :=
  if c = '(' then some (.paren, true)
  else if c = ')' then some (.paren, false)
  else if c = '[' then some (.square, true)
  else if c = ']' then some (.square, false)
  else none

/-- **What happens while the host reads a text**, up to the end of the script. -/
def events : Mode → Text → List Event
  | _, [] => []
  | .code, '?' :: '>' :: t => [.finish t]
  | .code, '/' :: '*' :: t => .startsBlock ('/' :: '*' :: t) :: events .block t
  | .code, '/' :: '/' :: t => .startsLine ('/' :: '/' :: t) :: events .line t
  | .code, c :: t =>
    if c = '#' then .startsLine (c :: t) :: events .line t
    else if c = '\'' ∨ c = '"' then events (.quoted c) t
    else (side? c).toList.map .bracket ++ events .code t
  | .quoted quote, '\\' :: _ :: t => events (.quoted quote) t
  | .quoted quote, c :: t => if c = quote then events .code t else events (.quoted quote) t
  | .block, '*' :: '/' :: t => .endsBlock t :: events .code t
  | .block, _ :: t => events .block t
  | .line, '?' :: '>' :: t => [.finish t]
  | .line, c :: t => if c = '\n' then events .code t else events .line t

/-- **The brackets that are open after some more**, the innermost first; nothing if one closes what
is not open. -/
def nest : List Bracket → List Side → Option (List Bracket)
  | stack, [] => some stack
  | stack, (b, true) :: sides => nest (b :: stack) sides
  | [], (_, false) :: _ => none
  | top :: stack, (b, false) :: sides => if top = b then nest stack sides else none

/-! ## Characters in code -/

/-- A character that is read as itself in code, whatever follows it. -/
def isInert (c : Char) : Bool := c != '?' && c != '/' && c != '#' && c != '\'' && c != '"'

theorem events_inert {c : Char} (h : isInert c = true) (t : Text) :
    events .code (c :: t) = (side? c).toList.map .bracket ++ events .code t := by
  simp only [isInert, Bool.and_eq_true, bne_iff_ne] at h
  obtain ⟨⟨⟨⟨hquestion, hslash⟩, hhash⟩, hsingle⟩, hdouble⟩ := h
  rw [events]
  · simp [hhash, hsingle, hdouble]
  all_goals simp_all

theorem events_question {d : Char} (h : d ≠ '>') (t : Text) :
    events .code ('?' :: d :: t) = events .code (d :: t) := by
  rw [events]
  · simp [side?]
  all_goals simp_all

theorem events_slash {d : Char} (hs : d ≠ '*') (hl : d ≠ '/') (t : Text) :
    events .code ('/' :: d :: t) = events .code (d :: t) := by
  rw [events]
  · simp [side?]
  all_goals simp_all

/-! ## Open brackets -/

theorem nest_append (stack : List Bracket) (u v : List Side) :
    nest stack (u ++ v) = (nest stack u).bind fun middle => nest middle v := by
  fun_induction nest stack u with
  | case1 => rfl
  | case2 stack b sides ih => exact ih
  | case3 => rfl
  | case4 b stack sides ih =>
    simp only [List.cons_append, nest, if_true]
    exact ih
  | case5 top stack b sides h => simp [nest, h]

/-- What is open further out does not matter. -/
theorem nest_outer {stack after : List Bracket} {sides : List Side}
    (h : nest stack sides = some after) (outer : List Bracket) :
    nest (stack ++ outer) sides = some (after ++ outer) := by
  fun_induction nest stack sides with
  | case1 => rw [← Option.some.inj h, nest]
  | case2 stack b sides ih => exact ih h
  | case3 => cases h
  | case4 b stack sides ih =>
    simp only [List.cons_append, nest, if_true]
    exact ih h
  | case5 => cases h

/-- **A piece of code**: wherever it stands in code, it is read as code up to its end, and takes the
open brackets `before` to `after`. -/
def Moves (before : List Bracket) (t : Text) (after : List Bracket) : Prop :=
  ∃ sides : List Side, (∀ k, events .code (t ++ k) = sides.map .bracket ++ events .code k) ∧
    nest before sides = some after

/-- **A piece of code that opens and closes its own brackets.** -/
def Closed (t : Text) : Prop := Moves [] t []

namespace Moves

variable {a b c : List Bracket} {s t : Text}

/-- **Pieces compose.** -/
theorem append (hs : Moves a s b) (ht : Moves b t c) : Moves a (s ++ t) c := by
  obtain ⟨u, hu, hab⟩ := hs
  obtain ⟨v, hv, hbc⟩ := ht
  refine ⟨u ++ v, fun k => ?_, ?_⟩
  · rw [List.append_assoc, hu, hv, List.map_append, List.append_assoc]
  · rw [nest_append, hab]
    exact hbc

theorem outer (h : Moves a t b) (more : List Bracket) : Moves (a ++ more) t (b ++ more) := by
  obtain ⟨u, hu, hab⟩ := h
  exact ⟨u, hu, nest_outer hab more⟩

end Moves

theorem closed_nil : Closed [] := ⟨[], fun _ => rfl, rfl⟩

theorem Closed.append {s t : Text} (hs : Closed s) (ht : Closed t) : Closed (s ++ t) :=
  Moves.append hs ht

/-- A closed piece may stand inside brackets. -/
theorem Closed.inside {t : Text} (h : Closed t) (stack : List Bracket) : Moves stack t stack :=
  Moves.outer h stack

/-! ## Fixed words -/

/-- The characters of a word are read as themselves: a `?` or `/` in it does not meet the character
that it would go on with. -/
def steady : Text → Bool
  | [] => true
  | c :: t =>
    (isInert c || c == '?' && t.head?.any (· != '>') ||
      c == '/' && t.head?.any (fun d => d != '*' && d != '/')) && steady t

theorem events_steady {t : Text} (h : steady t = true) (k : Text) :
    events .code (t ++ k) = (t.filterMap side?).map .bracket ++ events .code k := by
  induction t with
  | nil => rfl
  | cons c t ih =>
    simp only [steady, Bool.and_eq_true, Bool.or_eq_true, beq_iff_eq, Option.any_eq_true,
      bne_iff_ne] at h
    obtain ⟨hc, ht⟩ := h
    have hside : (List.filterMap side? (c :: t)).map Event.bracket =
        (side? c).toList.map .bracket ++ (t.filterMap side?).map .bracket := by
      rw [List.filterMap_cons]
      cases side? c <;> rfl
    rw [hside, List.append_assoc, ← ih ht]
    rcases hc with (hc | ⟨rfl, d, hd, hne⟩) | ⟨rfl, d, hd, hs, hl⟩
    · exact events_inert hc _
    · obtain ⟨t, rfl⟩ := List.head?_eq_some_iff.1 hd
      exact events_question hne _
    · obtain ⟨t, rfl⟩ := List.head?_eq_some_iff.1 hd
      exact events_slash hs hl _

/-- **A fixed word of generated code.** -/
theorem moves_word (word : Text) {a b : List Bracket} (h : steady word = true := by decide)
    (hn : nest a (word.filterMap side?) = some b := by decide) : Moves a word b :=
  ⟨_, events_steady h, hn⟩

/-- A text of characters that are read as themselves and are no brackets. -/
theorem closed_of_forall {t : Text} (h : ∀ c ∈ t, isInert c = true ∧ side? c = none) :
    Closed t := by
  have hsteady : steady t = true := by
    induction t with
    | nil => rfl
    | cons c t ih =>
      simp [steady, (h c List.mem_cons_self).1, ih fun d hd => h d (List.mem_cons_of_mem _ hd)]
  have hsides : t.filterMap side? = [] := List.filterMap_eq_nil_iff.2 fun c hc => (h c hc).2
  refine moves_word t hsteady ?_
  rw [hsides]
  rfl

/-- A closed piece between parentheses. -/
theorem Closed.parens {t : Text} (h : Closed t) : Closed ("(" ++ t ++ ")") :=
  ((moves_word "(").append (h.inside [.paren])).append (moves_word ")")

/-- A closed piece between square brackets. -/
theorem Closed.squares {t : Text} (h : Closed t) : Closed ("[" ++ t ++ "]") :=
  ((moves_word "[").append (h.inside [.square])).append (moves_word "]")

theorem closed_decimal (n : Nat) : Closed (Text.decimal n) := by
  refine closed_of_forall fun c hc => ?_
  have hdigit : c.isDigit = true := Nat.isDigit_of_mem_toDigits (by decide) (by decide) hc
  have hne : ∀ d : Char, d.isDigit = false → c ≠ d := by
    rintro d hd rfl
    rw [hdigit] at hd
    cases hd
  simp [isInert, side?, hne]

theorem closed_flatMap {α : Type} {f : α → Text} {xs : List α} (h : ∀ x ∈ xs, Closed (f x)) :
    Closed (xs.flatMap f) := by
  induction xs with
  | nil => exact closed_nil
  | cons x xs ih =>
    rw [List.flatMap_cons]
    exact (h x List.mem_cons_self).append (ih fun y hy => h y (List.mem_cons_of_mem _ hy))

/-! ## Quoted texts -/

/-- **What follows an opening quote up to the closing one.** -/
inductive QuotedBody (quote : Char) : Text → Prop
  | close : QuotedBody quote [quote]
  | escape (c : Char) {t : Text} (h : QuotedBody quote t) : QuotedBody quote ('\\' :: c :: t)
  | char {c : Char} {t : Text} (hq : c ≠ quote) (hb : c ≠ '\\') (h : QuotedBody quote t) :
      QuotedBody quote (c :: t)

theorem quotedBody_of_closeQuote {quote : Char} {t body rest : Text}
    (h : Token.closeQuote quote t = some (body, rest)) : QuotedBody quote body := by
  fun_induction Token.closeQuote quote t generalizing body rest with
  | case1 => cases h
  | case2 c t ih =>
    obtain ⟨⟨b, r⟩, hb, he⟩ := Option.map_eq_some_iff.1 h
    cases he
    exact .escape c (ih hb)
  | case3 t =>
    cases h
    exact .close
  | case4 c t hpair hc ih =>
    obtain ⟨⟨b, r⟩, hb, he⟩ := Option.map_eq_some_iff.1 h
    cases he
    refine .char hc ?_ (ih hb)
    -- A backslash that starts no pair is the last character, and no quote closes behind it.
    rintro rfl
    cases t with
    | nil => cases hb
    | cons d t => exact hpair d t rfl rfl

/-- **A quoted text is read up to its closing quote.** -/
theorem events_quotedBody {quote : Char} (hquote : quote ≠ '\\') {body : Text}
    (h : QuotedBody quote body) (k : Text) :
    events (.quoted quote) (body ++ k) = events .code k := by
  induction h with
  | close =>
    rw [List.singleton_append, events]
    · exact if_pos rfl
    · intro c t hq _
      exact hquote hq
  | escape c _ ih => exact ih
  | @char c t hq hb h ih =>
    rw [List.cons_append, events]
    · rw [if_neg hq]
      exact ih
    · intro d t hc _
      exact hb hc

theorem closed_quoted {quote : Char} (hquote : quote = '"' ∨ quote = '\'') {body : Text}
    (h : QuotedBody quote body) : Closed (quote :: body) := by
  refine ⟨[], fun k => ?_, rfl⟩
  have hbody : events .code (quote :: body ++ k) = events (.quoted quote) (body ++ k) := by
    rcases hquote with rfl | rfl <;> rfl
  rw [hbody]
  exact events_quotedBody (by rcases hquote with rfl | rfl <;> decide) h k

/-- Guarding the dollars of a quoted text leaves its end where it was. -/
theorem QuotedBody.guardDollars {body : Text} (h : QuotedBody '"' body) :
    QuotedBody '"' (guardDollars body) := by
  induction h with
  | close => exact .close
  | escape c _ ih => exact .escape c ih
  | @char c t hq hb h ih =>
    rw [Stencil.guardDollars]
    · split
      · exact .escape '$' ih
      · exact .char hq hb ih
    · intro d t hc _
      exact hb hc

/-! ## Marks -/

/-- A comment goes on behind a character that does not start its end. -/
theorem events_block {c : Char} {t : Text} (h : c = '*' → t.head? ≠ some '/') :
    events .block (c :: t) = events .block t := by
  rw [events]
  intro t' hc ht
  exact h hc (by rw [ht]; rfl)

/-- **A guarded text does not end the comment it stands in.** -/
theorem events_guardCommentEnd (t : Text) {k : Text} (hk : k.head? ≠ some '/') :
    events .block (guardCommentEnd t ++ k) = events .block k := by
  fun_induction guardCommentEnd t with
  | case1 => rfl
  | case2 t ih =>
    simp only [List.cons_append]
    rw [events_block (by simp), events_block (by simp), events_block (by simp), ih]
  | case3 c t hpair ih =>
    rw [List.cons_append, events_block ?_, ih]
    rintro rfl
    -- The text behind the star starts with the character it had before.
    cases t with
    | nil => exact hk
    | cons d t =>
      have hd : d ≠ '/' := fun hd => hpair t rfl (by rw [hd])
      unfold guardCommentEnd
      split <;> simp_all

/-- **The mark of a statement is one comment.** -/
theorem events_comment (m : Mark) (k : Text) :
    events .code (m.comment ++ k) =
      .startsBlock (m.comment ++ k) :: .endsBlock k :: events .code k := by
  have hinner : events .block ((' ' :: guardCommentEnd m.json) ++ (" */" ++ k)) =
      .endsBlock k :: events .code k := by
    rw [List.cons_append, events_block (by simp), events_guardCommentEnd _ (by simp)]
    rfl
  have hcomment : m.comment ++ k =
      '/' :: '*' :: ((' ' :: guardCommentEnd m.json) ++ (" */" ++ k)) := by
    unfold Mark.comment
    simp only [List.append_assoc]
    rfl
  rw [hcomment, events, hinner]

end Script

end Stencil
