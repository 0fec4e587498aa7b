import Stencil.Proofs.Text.Offset

/-!
# Proofs/Token/Walk — a cursor stands where its calls have led it

    text     │ what the calls have passed │ the text ahead …
    start ───┘                            └── offset, line

A cursor is asked to move over bytes, over blanks or over a token, in any order.  It keeps the text
ahead and counts without bound.  A cursor in bytes (`Cursor.InBytes`) has an offset of 64 bits and a
line of 32 bits, cuts its text at the offset each time, and gives nothing where a cut would fall within
a character or a sum has too many bits.  It follows the cursor through every call
(`follows_behind`), so wherever a run of calls leads, the text in front of the offset is what they have
passed, and the line counts its line feeds (`run_stands`).
-/

namespace Stencil

/-- A number, if it has no more than so many bits. -/
def fit? (bits n : Nat) : Option Nat := if n < 2 ^ bits then some n else none

theorem fit?_of_lt {bits n : Nat} (h : n < 2 ^ bits) : fit? bits n = some n := if_pos h

theorem fit?_of_le {bits n : Nat} (h : 2 ^ bits ≤ n) : fit? bits n = none := if_neg (Nat.not_lt.2 h)

namespace Cursor

/-! ## Calls -/

/-- What is asked of a cursor. -/
inductive Call
  /-- To move over so many bytes, or to the end. -/
  | advance (n : Nat)
  | skipBlanks
  | nextToken
  deriving DecidableEq, Repr

/-- What a call gives. -/
inductive Answer
  | passed (text : Text)
  | read (token : Token)
  /-- There is no token, for this reason. -/
  | stuck (why : Stuck)
  deriving DecidableEq, Repr

/-- The text that a call has passed. -/
def Answer.text : Answer → Text
  | passed text => text
  | read token => token.text
  | stuck _ => []

/-- What a cursor gives for a call, and the cursor after it. -/
def call (c : Cursor) : Call → Answer × Cursor
  | .advance n => (.passed (c.advance n).1, (c.advance n).2)
  | .skipBlanks => (.passed (c.rest.takeWhile Text.isBlank), c.skipBlanks)
  | .nextToken =>
    match c.nextToken with
    | .ok (token, moved) => (.read token, moved)
    | .error why => (.stuck why, c)

/-- What a cursor gives for calls, one after the other, and the cursor after them. -/
def run (c : Cursor) : List Call → List Answer × Cursor
  | [] => ([], c)
  | call :: calls =>
    ((c.call call).1 :: ((c.call call).2.run calls).1, ((c.call call).2.run calls).2)

/-- The offset at which a call is to end. -/
def goal (c : Cursor) : Call → Nat
  | .advance n => c.offset + n
  | call => (c.call call).2.offset

/-! ## Cursors in bytes -/

/-- **A cursor that knows its place by the offset alone**, and whose numbers have so many bits. -/
structure InBytes where
  text : Text
  offset : Nat
  line : Nat
  deriving DecidableEq, Repr

/-- The cursor in bytes at the same place. -/
def inBytes (c : Cursor) : InBytes := ⟨c.text, c.offset, c.line⟩

namespace InBytes

/-- The text ahead. -/
def rest? (b : InBytes) : Option Text := b.text.back? b.offset

/-- Moves over so many bytes, or to the end.  The sum that says where has 64 bits; the line has 32 bits,
and so has the number of line feeds, which is the greatest such number if there are more. -/
def advance? (b : InBytes) (n : Nat) : Option (Text × InBytes) := do
  let sum ← fit? 64 (b.offset + n)
  let front ← b.text.front? (min sum b.text.size)
  let passed ← front.back? b.offset
  let line ← fit? 32 (b.line + min passed.newlines (2 ^ 32 - 1))
  some (passed, ⟨b.text, min sum b.text.size, line⟩)

/-- What the cursor gives for a call, and the cursor after it. -/
def call? (b : InBytes) : Call → Option (Answer × InBytes)
  | .advance n => do
    let (passed, moved) ← b.advance? n
    some (.passed passed, moved)
  | .skipBlanks => do
    let rest ← b.rest?
    let (passed, moved) ← b.advance? (rest.size - (Text.trimStart rest).size)
    some (.passed passed, moved)
  | .nextToken => do
    let rest ← b.rest?
    match Token.next rest with
    | .error why => some (.stuck why, b)
    | .ok (token, _) => do
      let (passed, moved) ← b.advance? token.text.size
      some (.read ⟨token.kind, passed⟩, moved)

/-- What the cursor gives for calls, one after the other, and the cursor after them.  A call that has
no answer ends the run. -/
def run (b : InBytes) : List Call → List Answer × InBytes
  | [] => ([], b)
  | call :: calls =>
    match b.call? call with
    | none => ([], b)
    | some (answer, moved) => (answer :: (moved.run calls).1, (moved.run calls).2)

/-- **Whether a call ends well**: at an edge of the text, or beyond its end. -/
def endsWell (b : InBytes) : Call → Bool
  | .advance n => b.text.isEdge (b.offset + n) || decide (b.text.size ≤ b.offset + n)
  | _ => true

/-- Whether all calls of a run end well. -/
def allEndWell (b : InBytes) : List Call → Bool
  | [] => true
  | call :: calls => b.endsWell call && (b.call? call).all fun (_, moved) => moved.allEndWell calls

end InBytes

/-! ## What a call passes -/

section Behind

variable (passed : Text)

/-- An advance passes the characters that fit into its bytes. -/
theorem call_advance {n : Nat} {front ahead : Text}
    (h : Text.splitBytes n (front ++ ahead) = (front, ahead)) :
    (behind passed (front ++ ahead)).call (.advance n) =
      (.passed front, behind (passed ++ front) ahead) := by
  rw [call, advance, show (behind passed (front ++ ahead)).rest = front ++ ahead from rfl, h,
    ← move_behind]

/-- The blanks ahead are passed. -/
theorem call_skipBlanks (rest : Text) :
    (behind passed rest).call .skipBlanks =
      (.passed (rest.takeWhile Text.isBlank),
        behind (passed ++ rest.takeWhile Text.isBlank) (Text.trimStart rest)) := by
  rw [← move_behind, Text.takeWhile_append_trimStart]
  rfl

/-- A token is passed if there is one. -/
theorem call_nextToken {ahead : Text} {token : Token}
    (h : Token.next (token.text ++ ahead) = .ok (token, ahead)) :
    (behind passed (token.text ++ ahead)).call .nextToken =
      (.read token, behind (passed ++ token.text) ahead) := by
  rw [call, nextToken, show (behind passed (token.text ++ ahead)).rest = token.text ++ ahead from rfl,
    h, ← move_behind]

theorem call_nextToken_stuck {rest : Text} {why : Stuck} (h : Token.next rest = .error why) :
    (behind passed rest).call .nextToken = (.stuck why, behind passed rest) := by
  rw [call, nextToken, show (behind passed rest).rest = rest from rfl, h]

/-- **What a call passes** is the text between the cursor and the one after the call. -/
theorem call_behind (rest : Text) (call : Call) :
    ∃ answer ahead, rest = answer.text ++ ahead ∧
      (behind passed rest).call call = (answer, behind (passed ++ answer.text) ahead) := by
  cases call with
  | advance n =>
    obtain ⟨front, ahead, hsplit⟩ : ∃ front ahead, Text.splitBytes n rest = (front, ahead) :=
      ⟨_, _, rfl⟩
    obtain rfl : front ++ ahead = rest := by rw [← Text.splitBytes_append n rest, hsplit]
    exact ⟨.passed front, ahead, rfl, call_advance passed hsplit⟩
  | skipBlanks =>
    exact ⟨_, _, (Text.takeWhile_append_trimStart rest).symm, call_skipBlanks passed rest⟩
  | nextToken =>
    cases hnext : Token.next rest with
    | ok result =>
      obtain ⟨token, ahead⟩ := result
      obtain rfl := (Token.read?_append (Token.next_eq_ok_iff.1 hnext)).1
      exact ⟨.read token, ahead, rfl, call_nextToken passed hnext⟩
    | error why =>
      refine ⟨.stuck why, rest, rfl, ?_⟩
      rw [call_nextToken_stuck passed hnext, Answer.text, List.append_nil]

end Behind

/-! ## A cursor in bytes goes the same way -/

/-- **A part of the text is passed** that ends where the sum says, or with the text. -/
theorem advance?_behind {passed front ahead : Text} {n : Nat}
    (hlines : (passed ++ (front ++ ahead)).newlines < 2 ^ 32 - 1)
    (hstop : min (passed.size + n) (passed ++ (front ++ ahead)).size = (passed ++ front).size)
    (hfit : passed.size + n < 2 ^ 64) :
    (behind passed (front ++ ahead)).inBytes.advance? n =
      some (front, (behind (passed ++ front) ahead).inBytes) := by
  have hfront : Text.front? (passed ++ (front ++ ahead)) (passed ++ front).size =
      some (passed ++ front) := by rw [← List.append_assoc, Text.front?_size]
  simp only [Text.newlines_append] at hlines
  have hfeeds : min front.newlines (2 ^ 32 - 1) = front.newlines := by omega
  have hline : 1 + (passed.newlines + front.newlines) < 2 ^ 32 := by omega
  simp only [InBytes.advance?, inBytes, behind, fit?_of_lt hfit, Option.bind_eq_bind,
    Option.bind_some, hstop, hfront, Text.back?_size, hfeeds, fit?_of_lt hline, List.append_assoc,
    Text.newlines_append, Nat.add_assoc]

theorem advance?_eq_none {b : InBytes} {n : Nat} (h : 2 ^ 64 ≤ b.offset + n) :
    b.advance? n = none := by
  rw [InBytes.advance?, fit?_of_le h]
  rfl

/-- A part of the text is passed by its size, if the sum has no more than 64 bits. -/
theorem advance?_size {passed front ahead : Text}
    (hlines : (passed ++ (front ++ ahead)).newlines < 2 ^ 32 - 1) :
    (behind passed (front ++ ahead)).inBytes.advance? front.size =
        some (front, (behind (passed ++ front) ahead).inBytes) ∨
      ((behind passed (front ++ ahead)).inBytes.advance? front.size = none ∧
        2 ^ 64 ≤ (passed ++ front).size) := by
  rw [Text.size_append passed front]
  rcases Nat.lt_or_ge (passed.size + front.size) (2 ^ 64) with hfit | hlarge
  · refine .inl (advance?_behind hlines ?_ hfit)
    simp only [Text.size_append]
    omega
  · exact .inr ⟨advance?_eq_none hlarge, hlarge⟩

@[simp] theorem rest?_inBytes (passed rest : Text) :
    (behind passed rest).inBytes.rest? = some rest := Text.back?_size passed rest

/-- **A cursor is followed through a call**: in bytes the call gives the same and leads to the same
place, or it gives nothing and is to end at no number of 64 bits. -/
def Follows (c : Cursor) (call : Call) : Prop :=
  c.inBytes.call? call = some ((c.call call).1, (c.call call).2.inBytes) ∨
    (c.inBytes.call? call = none ∧ 2 ^ 64 ≤ c.goal call)

section Follows

variable {passed rest : Text} (hlines : (passed ++ rest).newlines < 2 ^ 32 - 1)

include hlines

theorem follows_advance {n : Nat}
    (hends : (behind passed rest).inBytes.endsWell (.advance n) = true) :
    (behind passed rest).Follows (.advance n) := by
  have hsize : (Text.splitBytes n rest).1.size = min n rest.size := by
    refine Text.size_splitBytes ?_
    simp only [InBytes.endsWell, inBytes, behind, Bool.or_eq_true, Text.isEdge_add,
      Text.size_append, decide_eq_true_eq] at hends
    exact hends.imp_right Nat.le_of_add_le_add_left
  obtain ⟨front, ahead, hsplit⟩ : ∃ front ahead, Text.splitBytes n rest = (front, ahead) :=
    ⟨_, _, rfl⟩
  obtain rfl : front ++ ahead = rest := by rw [← Text.splitBytes_append n rest, hsplit]
  rcases Nat.lt_or_ge (passed.size + n) (2 ^ 64) with hfit | hlarge
  · have hstop : min (passed.size + n) (passed ++ (front ++ ahead)).size =
        (passed ++ front).size := by
      rw [hsplit] at hsize
      rw [Text.size_append, Text.size_append passed front, hsize, Nat.add_min_add_left]
    left
    rw [call_advance passed hsplit, InBytes.call?, advance?_behind hlines hstop hfit]
    rfl
  · right
    rw [InBytes.call?, advance?_eq_none hlarge]
    exact ⟨rfl, hlarge⟩

theorem follows_skipBlanks : (behind passed rest).Follows .skipBlanks := by
  have hrest := Text.takeWhile_append_trimStart rest
  have hadvance := advance?_size (hrest.symm ▸ hlines)
  rw [hrest] at hadvance
  simp only [Follows, goal, call_skipBlanks, InBytes.call?, rest?_inBytes, Option.bind_eq_bind,
    Option.bind_some, Text.size_sub_trimStart]
  rcases hadvance with hsome | ⟨hnone, hlarge⟩
  · exact .inl (by rw [hsome]; rfl)
  · exact .inr ⟨by rw [hnone]; rfl, hlarge⟩

theorem follows_nextToken : (behind passed rest).Follows .nextToken := by
  simp only [Follows, goal, InBytes.call?, rest?_inBytes, Option.bind_eq_bind, Option.bind_some]
  cases hnext : Token.next rest with
  | error why =>
    rw [call_nextToken_stuck passed hnext]
    exact .inl rfl
  | ok result =>
    obtain ⟨token, ahead⟩ := result
    obtain rfl := (Token.read?_append (Token.next_eq_ok_iff.1 hnext)).1
    rw [call_nextToken passed hnext]
    rcases advance?_size hlines with hsome | ⟨hnone, hlarge⟩
    · exact .inl (by dsimp only; rw [hsome]; rfl)
    · exact .inr ⟨by dsimp only; rw [hnone]; rfl, hlarge⟩

/-- **A cursor is followed through every call** that ends well. -/
theorem follows_behind {call : Call} (hends : (behind passed rest).inBytes.endsWell call = true) :
    (behind passed rest).Follows call := by
  cases call with
  | advance n => exact follows_advance hlines hends
  | skipBlanks => exact follows_skipBlanks hlines
  | nextToken => exact follows_nextToken hlines

end Follows

/-! ## Runs -/

/-- **A cursor stands in a text** behind what it has passed. -/
structure Stands (t passed : Text) (c : Cursor) : Prop where
  text : c.text = t
  offset_le : c.offset ≤ t.size
  front : t.front? c.offset = some passed
  rest : t.back? c.offset = some c.rest
  line : c.line = 1 + passed.newlines

theorem stands_behind (passed rest : Text) : (behind passed rest).Stands (passed ++ rest) passed where
  text := rfl
  offset_le := Text.size_append passed rest ▸ Nat.le_add_right _ _
  front := Text.front?_size passed rest
  rest := Text.back?_size passed rest
  line := rfl

/-- **A run of calls** ends behind all that the calls have passed. -/
theorem run_behind (passed rest : Text) (calls : List Call) :
    ∃ answers ahead, rest = answers.flatMap Answer.text ++ ahead ∧
      (behind passed rest).run calls =
        (answers, behind (passed ++ answers.flatMap Answer.text) ahead) := by
  induction calls generalizing passed rest with
  | nil =>
    refine ⟨[], rest, rfl, ?_⟩
    rw [List.flatMap_nil, List.append_nil]
    rfl
  | cons call calls ih =>
    obtain ⟨answer, ahead, rfl, hcall⟩ := call_behind passed rest call
    obtain ⟨answers, last, rfl, hrun⟩ := ih (passed ++ answer.text) ahead
    refine ⟨answer :: answers, last, ?_, ?_⟩
    · rw [List.flatMap_cons, List.append_assoc]
    · rw [run, hcall, hrun, List.flatMap_cons, List.append_assoc]

/-- **A cursor is followed through a run of calls** that end well, up to one that is to end at no
number of 64 bits. -/
theorem follows_run {passed rest : Text} {calls : List Call}
    (hlines : (passed ++ rest).newlines < 2 ^ 32 - 1)
    (hends : (behind passed rest).inBytes.allEndWell calls = true) :
    ∃ made left, calls = made ++ left ∧
      (behind passed rest).inBytes.run calls =
        (((behind passed rest).run made).1, ((behind passed rest).run made).2.inBytes) ∧
      ∀ call ∈ left.head?, 2 ^ 64 ≤ ((behind passed rest).run made).2.goal call := by
  induction calls generalizing passed rest with
  | nil => exact ⟨[], [], rfl, rfl, fun _ h => nomatch h⟩
  | cons call calls ih =>
    rw [InBytes.allEndWell, Bool.and_eq_true] at hends
    rcases follows_behind hlines hends.1 with hsome | ⟨hnone, hlarge⟩
    · obtain ⟨answer, ahead, rfl, hcall⟩ := call_behind passed rest call
      rw [hcall] at hsome
      rw [hsome] at hends
      obtain ⟨made, left, rfl, hrun, hleft⟩ := ih (by rwa [List.append_assoc]) hends.2
      refine ⟨call :: made, left, rfl, ?_, ?_⟩
      · rw [InBytes.run, hsome, run, hcall]
        dsimp only
        rw [hrun]
      · rwa [run, hcall]
    · refine ⟨[], call :: calls, rfl, ?_, fun _ h => Option.some.inj h ▸ hlarge⟩
      rw [InBytes.run, hnone]
      rfl

/-- Where there is no token, a cursor in bytes stays. -/
theorem eq_of_stuck {b moved : InBytes} {why : Stuck}
    (h : b.call? .nextToken = some (.stuck why, moved)) : moved = b := by
  obtain ⟨rest, -, hnext⟩ := Option.bind_eq_some_iff.1 h
  cases htoken : Token.next rest with
  | error why' =>
    rw [htoken] at hnext
    cases hnext
    rfl
  | ok result =>
    rw [htoken] at hnext
    obtain ⟨_, -, hread⟩ := Option.bind_eq_some_iff.1 hnext
    cases hread

/-- **A cursor stands where its calls have led it.**  After any run of calls of which each advance ends
at an edge of the text or beyond its end, the offset is within the text, what has been passed is the
text in front of it and the text ahead is the rest, and the line is one more than the line feeds in
front.  In bytes the calls lead to the same place, with a line of 32 bits, and stop only at a call that
is to end at no number of 64 bits.  Where there is no token, the cursor stays. -/
theorem run_stands {t : Text} (hlines : t.newlines < 2 ^ 32 - 1) {calls : List Call}
    (hends : (start t).inBytes.allEndWell calls = true) :
    ∃ made left answers, ∃ c : Cursor, calls = made ++ left ∧
      (∀ call ∈ left.head?, 2 ^ 64 ≤ c.goal call) ∧
      (start t).run made = (answers, c) ∧ (start t).inBytes.run calls = (answers, c.inBytes) ∧
      c.Stands t (answers.flatMap Answer.text) ∧ c.line < 2 ^ 32 ∧
      ∀ why moved, c.inBytes.call? .nextToken = some (.stuck why, moved) → moved = c.inBytes := by
  obtain ⟨made, left, hcalls, hbytes, hleft⟩ := @follows_run [] t calls hlines hends
  obtain ⟨answers, ahead, rfl, hrun⟩ := run_behind [] t made
  rw [hrun] at hbytes hleft
  refine ⟨made, left, answers, _, hcalls, hleft, hrun, hbytes, stands_behind _ _, ?_,
    fun _ _ => eq_of_stuck⟩
  rw [Text.newlines_append] at hlines
  change 1 + Text.newlines (answers.flatMap Answer.text) < 2 ^ 32
  omega

/-- A text with a character and a blank of several bytes, a quoted text of two lines, and a character
that starts no token. -/
def wideText : Text := "é\u3000'a\nb'#"

/-- Calls that pass it piece by piece, ask for the token that is not there, and go on beyond the end. -/
def wideCalls : List Call := [.advance 2, .skipBlanks, .nextToken, .nextToken, .advance 99]

theorem run_stands_wide_text :
    wideText.newlines < 2 ^ 32 - 1 ∧ (start wideText).inBytes.allEndWell wideCalls = true ∧
      ∃ c : Cursor, (start wideText).inBytes.run wideCalls =
        ([.passed "é".toList, .passed "\u3000".toList, .read ⟨.quoted, "'a\nb'".toList⟩,
          .stuck ⟨.noToken "#".toList, "#".toList⟩, .passed "#".toList], c.inBytes) ∧
        c.Stands wideText wideText ∧ c.line = 2 := by
  have hends : (start wideText).inBytes.allEndWell wideCalls = true := by decide +kernel
  refine ⟨by decide, hends, ?_⟩
  obtain ⟨made, left, answers, c, -, -, -, hbytes, hstands, -⟩ := run_stands (by decide) hends
  have hrun : ((start wideText).inBytes.run wideCalls).1 =
      [.passed "é".toList, .passed "\u3000".toList, .read ⟨.quoted, "'a\nb'".toList⟩,
        .stuck ⟨.noToken "#".toList, "#".toList⟩, .passed "#".toList] := by decide +kernel
  rw [hbytes] at hrun
  subst hrun
  exact ⟨c, hbytes, hstands, hstands.line⟩

end Cursor

end Stencil
