import Stencil.Proofs.Expr.Unbroken
import Stencil.Proofs.Text.Offset

/-!
# Proofs/Expr/Move — an expression, move by move

    draft, text ahead ──move──▸ bytes passed, and  fail · stay · enter · finish

A round of the emitter reads what is nested in one go.  A move stops there: it says that an
expression one level down is to be read (`enter`), and what the draft makes of its code stands in
`receive`.  So a move needs no levels below it, and tells by how many bytes the text is passed.  With
the levels put back it is the round (`round_eq_move`).  A move cuts the text at an edge
(`move_isEdge`), and if the expression goes on it goes forward (`move_pos`).
-/

namespace Stencil

namespace Draft

/-! ## Moves -/

/-- What an expression does next. -/
inductive Move
  /-- It cannot go on. -/
  | fail (fault : Fault)
  /-- It goes on with more of it read. -/
  | stay (draft : Draft)
  /-- It goes on behind an expression one level down, in a context. -/
  | enter (draft : Draft) (child : Context)
  /-- It ends with its code. -/
  | finish (code : Text)

namespace Move

/-- Whether the expression goes on. -/
def goesOn : Move → Bool
  | stay _ | enter _ _ => true
  | fail _ | finish _ => false

/-- The draft that is left, or why there is none. -/
def ofExcept : Except Fault Draft → Move
  | .error fault => fail fault
  | .ok d => stay d

end Move

/-- The draft behind an expression one level down, with its code. -/
def receive (d : Draft) (child : Context) (code : Text) : Draft :=
  match child with
  | .no => (d.write code).endTernary
  | child => { d.write code with pending := some child }

/-- What follows a part of a group, and how many bytes of it are passed. -/
def delimit (d : Draft) (group : Context) (t : Text) : Nat × Move :=
  match t with
  | [] => (0, .fail .endInsideTag)
  | c :: _ =>
    match group.turn c with
    | .error fault => (0, .fail fault)
    | .ok (.close bracket) => (1, .stay (d.close bracket))
    | .ok (.next .no) => (1, .enter (d.write " : (") .no)
    | .ok (.next next) =>
      (1, .enter (d.write (if group.isKey ∧ c = ':' then " => " else ", ")) next)

/-- The code of a token with no expression in it, before the text behind it. -/
def writeToken (s : Scope) (ctx : Context) (d : Draft) (token : Token) (group : Token.Group)
    (rest : Text) : Except Fault Draft :=
  match d.emit s none ctx token group rest with
  | .error stuck => .error stuck.fault
  | .ok (d, _) => .ok { d with prev := .token token group }

/-- A token behind the draft. -/
def accept (s : Scope) (ctx : Context) (d : Draft) (token : Token) (rest : Text) : Move :=
  let group := token.group d.prev.group?
  match d.prev.clash? token group with
  | some fault => .fail fault
  | none =>
    match token.kind with
    | .opening bracket =>
      match d.prev.opens bracket with
      | .error fault => .fail fault
      | .ok child =>
        .enter { (d.start group).write bracket.openCode with prev := .token token group } child
    | .question =>
      if d.ternaryDone ∨ ctx.isBranch then .fail .nestedTernary
      else .enter { (d.start group).write " ? " with prev := .token token group } .yes
    | _ => .ofExcept ((d.start group).writeToken s ctx token group rest)

/-- The end of the expression before a stop character. -/
def last (ctx : Context) (d : Draft) (c : Char) : Move :=
  if ctx.ends c then
    match d.unfinished? ctx c with
    | some fault => .fail fault
    | none => .finish d.out
  else .fail (ctx.misplaced c)

/-- **A move**, before a text that starts with no blank: how many bytes are passed, and what the
expression does next. -/
def move (s : Scope) (ctx : Context) (d : Draft) (t : Text) : Nat × Move :=
  match d.pending with
  | some group => { d with pending := none }.delimit group t
  | none =>
    match t with
    | [] => (0, .fail .endInsideTag)
    | c :: r =>
      if isStop c then (0, d.last ctx c)
      else
        match Token.next (c :: r) with
        | .error stuck => (0, .fail stuck.fault)
        | .ok (token, rest) => (token.text.size, d.accept s ctx token rest)

variable {s : Scope} {nested : Option Nested} {ctx : Context} {d d' : Draft} {t rest : Text}

/-! ## Edges -/

/-- What a group takes behind its parts is one byte long. -/
theorem utf8Size_of_turn {group : Context} {c : Char} {turn : Context.Turn}
    (h : group.turn c = .ok turn) : c.utf8Size = 1 := by
  unfold Context.turn at h
  split at h
  · next bracket hbracket =>
    rw [Option.filter_eq_some_iff] at hbracket
    rw [← beq_iff_eq.1 hbracket.2]
    cases bracket <;> rfl
  split at h
  · cases h
  · next hc =>
    obtain rfl | rfl : c = ',' ∨ c = ':' := by
      by_cases hcomma : c = ','
      · exact .inl hcomma
      · exact .inr (Decidable.not_not.1 fun hcolon => hc ⟨hcomma, hcolon⟩)
    · rfl
    · rfl

theorem delimit_cut (d : Draft) (group : Context) (t : Text) :
    (d.delimit group t).1 = 0 ∧ (d.delimit group t).2.goesOn = false ∨
      ∃ c r, t = c :: r ∧ (d.delimit group t).1 = Text.size [c] := by
  unfold delimit
  split
  · exact .inl ⟨rfl, rfl⟩
  next c r =>
  split
  · exact .inl ⟨rfl, rfl⟩
  all_goals
    next hturn =>
    exact .inr ⟨c, r, rfl, (utf8Size_of_turn hturn).symm⟩

/-- **What a move passes**: nothing, and then the expression does not go on, or a piece of the text
ahead. -/
theorem move_cut (s : Scope) (ctx : Context) (d : Draft) (t : Text) :
    (d.move s ctx t).1 = 0 ∧ (d.move s ctx t).2.goesOn = false ∨
      ∃ front back, t = front ++ back ∧ front ≠ [] ∧ (d.move s ctx t).1 = front.size := by
  unfold move
  split
  · next group _ =>
    rcases delimit_cut { d with pending := none } group t with hzero | ⟨c, r, rfl, hsize⟩
    · exact .inl hzero
    · exact .inr ⟨[c], r, rfl, List.cons_ne_nil c [], hsize⟩
  split
  · exact .inl ⟨rfl, rfl⟩
  next c r =>
  split
  · unfold last
    split
    · split <;> exact .inl ⟨rfl, rfl⟩
    · exact .inl ⟨rfl, rfl⟩
  split
  · exact .inl ⟨rfl, rfl⟩
  · next token rest hnext =>
    obtain ⟨happend, hne⟩ := Token.read?_append (Token.next_eq_ok_iff.1 hnext)
    exact .inr ⟨token.text, rest, happend.symm, hne, rfl⟩

/-- **A move cuts the text at an edge.** -/
theorem move_isEdge (s : Scope) (ctx : Context) (d : Draft) (t : Text) :
    t.isEdge (d.move s ctx t).1 = true := by
  rcases move_cut s ctx d t with ⟨hzero, -⟩ | ⟨front, back, hsplit, -, hsize⟩
  · rw [hzero]
    exact Text.isEdge_size [] t
  · rw [hsize]
    nth_rewrite 1 [hsplit]
    exact Text.isEdge_size front back

/-- **An expression that goes on goes forward.** -/
theorem move_pos (h : (d.move s ctx t).2.goesOn = true) : 0 < (d.move s ctx t).1 := by
  rcases move_cut s ctx d t with ⟨-, hstays⟩ | ⟨front, -, -, hne, hsize⟩
  · cases hstays.symm.trans h
  · rw [hsize]
    exact Text.size_pos hne

/-! ## Faults

Only entering an expression one level down can be too deep, and that is not the draft's to say. -/

theorem code_ne_tooDeep_of_turn {group : Context} {c : Char} {fault : Fault}
    (h : group.turn c = .error fault) : fault.code ≠ .tooDeep := by
  unfold Context.turn at h
  split at h
  · cases h
  split at h
  · cases h
    exact (group.misplaced_isOfToken c).code_ne_tooDeep
  split at h
  · cases h
    rintro ⟨⟩
  · cases h

theorem code_ne_tooDeep_of_insertOpener {fault : Fault} (h : d.insertOpener s = .error fault) :
    fault.code ≠ .tooDeep := by
  unfold insertOpener at h
  split at h <;> cases h
  exact nofun

theorem code_ne_tooDeep_of_emitTarget {target : Reference} {fault : Fault}
    (h : d.emitTarget s target = .error fault) : fault.code ≠ .tooDeep := by
  unfold emitTarget at h
  split at h
  · cases hinsert : d.insertOpener s with
    | error _ =>
      rw [hinsert] at h
      cases h
      exact code_ne_tooDeep_of_insertOpener hinsert
    | ok d' =>
      rw [hinsert] at h
      cases h
  · cases h

/-- A name is not nested. -/
theorem code_ne_tooDeep_of_emitName {name : Text} {fault : Fault}
    (h : d.emitName s name rest = .error fault) : fault.code ≠ .tooDeep := by
  unfold emitName at h
  extract_lets ahead at h
  split at h
  · split at h
    · cases h
      exact nofun
    split at h
    · cases h
      exact nofun
    cases hinsert : d.insertOpener s with
    | error _ =>
      rw [hinsert] at h
      cases h
      exact code_ne_tooDeep_of_insertOpener hinsert
    | ok d' =>
      rw [hinsert] at h
      cases h
  · cases hname : d.chain.addName s name ahead with
    | error _ =>
      rw [hname] at h
      cases h
      exact (Chain.isOfToken_of_addName hname).code_ne_tooDeep
    | ok found =>
      rw [hname] at h
      obtain ⟨chain, _ | target⟩ := found
      · cases h
      · exact code_ne_tooDeep_of_emitTarget h

/-- **A token with no expression in it** does nothing to the levels below, leaves the text behind it,
and is not nested itself. -/
theorem exists_before (s : Scope) (ctx : Context) (d : Draft) (token : Token) (group : Token.Group)
    (t : Text) (hbracket : ∀ bracket, token.kind ≠ .opening bracket) (hquestion : token.kind ≠ .question) :
    ∃ x, (∀ nested, d.emit s nested ctx token group t = before t x) ∧
      ∀ fault, x = .error fault → fault.code ≠ .tooDeep := by
  unfold emit
  split
  case h_1 => exact ⟨_, fun _ => rfl, fun _ => code_ne_tooDeep_of_emitName⟩
  case h_2 => exact ⟨_, fun _ => rfl, fun _ h => (isOfToken_of_emitDots h).code_ne_tooDeep⟩
  case h_5 =>
    split
    · exact ⟨.ok _, fun _ => rfl, nofun⟩
    · split <;> exact ⟨.ok _, fun _ => rfl, nofun⟩
  case h_6 => split <;> exact ⟨.ok _, fun _ => rfl, nofun⟩
  case h_12 bracket hkind => exact absurd hkind (hbracket bracket)
  case h_13 hkind => exact absurd hkind hquestion
  case h_14 | h_15 | h_16 | h_17 | h_18 =>
    refine ⟨.error _, fun _ => rfl, ?_⟩
    rintro _ ⟨⟩
    exact nofun
  all_goals exact ⟨.ok _, fun _ => rfl, nofun⟩

theorem code_ne_tooDeep_of_accept {token : Token} {fault : Fault}
    (h : d.accept s ctx token rest = .fail fault) : fault.code ≠ .tooDeep := by
  unfold accept at h
  extract_lets group at h
  split at h
  · next hclash =>
    cases h
    exact (Previous.isOfToken_of_clash? hclash).code_ne_tooDeep
  split at h
  · split at h
    · next hopens =>
      cases h
      exact (Previous.isOfToken_of_opens hopens).code_ne_tooDeep
    · cases h
  · split at h
    · cases h
      exact nofun
    · cases h
  · next hbracket hquestion =>
    obtain ⟨x, hx, hfault⟩ := exists_before s ctx (d.start group) token group rest hbracket
      hquestion
    rw [writeToken, hx none] at h
    cases x with
    | error _ =>
      cases h
      exact hfault _ rfl
    | ok d' => cases h

/-- **A draft that fails is not too deep**: that is found out where an expression is entered. -/
theorem code_ne_tooDeep_of_move {fault : Fault} (h : (d.move s ctx t).2 = .fail fault) :
    fault.code ≠ .tooDeep := by
  unfold move at h
  split at h
  · next group _ =>
    unfold delimit at h
    split at h
    · cases h
      exact nofun
    split at h
    · next hturn =>
      cases h
      exact code_ne_tooDeep_of_turn hturn
    all_goals cases h
  split at h
  · cases h
    exact nofun
  next c r =>
  split at h
  · unfold last at h
    split at h
    · split at h
      · next hfault =>
        cases h
        exact (isOfToken_of_unfinished? hfault).code_ne_tooDeep
      · cases h
    · cases h
      exact (ctx.misplaced_isOfToken c).code_ne_tooDeep
  split at h
  · next hnext =>
    cases h
    exact (isOfToken_of_next hnext).code_ne_tooDeep
  · exact code_ne_tooDeep_of_accept h

/-! ## Rounds -/

/-- What a move comes to where the expressions one level down are emitted in one go. -/
def Move.round (nested : Option Nested) (rest : Text) : Move → Except Stuck Round
  | fail fault => .error ⟨fault, rest⟩
  | stay d => .ok (.more d rest)
  | enter d child =>
    match nested with
    | none => .error ⟨.tooDeep maxNesting, rest⟩
    | some level =>
      level.emit child rest >>= fun found => .ok (.more (d.receive child found.1) found.2)
  | finish code => .ok (.done code rest)

theorem emit_eq_writeToken (s : Scope) (nested : Option Nested) (ctx : Context) (d : Draft)
    {token : Token} (group : Token.Group) (t : Text)
    (hbracket : ∀ bracket, token.kind ≠ .opening bracket) (hquestion : token.kind ≠ .question) :
    (d.emit s nested ctx token group t >>= fun found =>
        .ok (Round.more { found.1 with prev := .token token group } found.2)) =
      (Move.ofExcept (d.writeToken s ctx token group t)).round nested t := by
  obtain ⟨x, hx, -⟩ := exists_before s ctx d token group t hbracket hquestion
  rw [writeToken, hx nested, hx none]
  cases x <;> rfl

/-- A part of a group that is nested is one that is entered. -/
theorem nest_eq_enter {child : Context} (hchild : child ≠ .no) :
    (d.nest nested child t >>= fun found => .ok (Round.more found.1 found.2)) =
      (Move.enter d child).round nested t := by
  unfold nest Move.round
  cases nested with
  | none => rfl
  | some level =>
    dsimp only
    cases level.emit child t with
    | error stuck => rfl
    | ok found => cases child <;> first | rfl | exact absurd rfl hchild

theorem closeOrContinue_eq_delimit (d : Draft) (group : Context) (t : Text) :
    (d.closeOrContinue nested group t >>= fun found => .ok (Round.more found.1 found.2)) =
      (d.delimit group t).2.round nested (Text.splitBytes (d.delimit group t).1 t).2 := by
  have hskip : ∀ {c : Char} {r : Text} {turn : Context.Turn}, group.turn c = .ok turn →
      (Text.splitBytes 1 (c :: r)).2 = r := by
    intro c r turn hturn
    rw [← utf8Size_of_turn hturn]
    exact congrArg Prod.snd (Text.splitBytes_size [c] r)
  unfold closeOrContinue delimit
  cases t with
  | nil => rfl
  | cons c r =>
  cases hturn : group.turn c with
  | error fault =>
    simp only [hturn]
    rw [Text.splitBytes_zero]
    rfl
  | ok turn =>
    simp only [hturn]
    cases turn with
    | close bracket =>
      dsimp only
      rw [hskip hturn]
      rfl
    | next next =>
      cases next with
      | no =>
        dsimp only
        rw [hskip hturn]
        unfold nest Move.round
        cases nested with
        | none => rfl
        | some level =>
          dsimp only
          cases level.emit .no r <;> rfl
      | _ =>
        dsimp only
        rw [hskip hturn]
        exact nest_eq_enter (by rintro ⟨⟩)

theorem take_eq_accept (d : Draft) (token : Token) (rest : Text) :
    (d.take s nested ctx token rest >>= fun found => .ok (Round.more found.1 found.2)) =
      (d.accept s ctx token rest).round nested rest := by
  unfold take accept
  extract_lets group
  cases d.prev.clash? token group with
  | some fault => rfl
  | none =>
  dsimp only
  have hopens : ∀ bracket, (d.start group).prev.opens bracket = d.prev.opens bracket := fun _ => rfl
  have hdone : (d.start group).ternaryDone = d.ternaryDone := rfl
  by_cases hbracket : ∃ bracket, token.kind = .opening bracket
  · obtain ⟨bracket, hkind⟩ := hbracket
    unfold emit
    rw [hkind]
    dsimp only
    rw [hopens]
    cases hchild : d.prev.opens bracket with
    | error fault => rfl
    | ok child =>
      have hno : child ≠ .no := by
        rintro rfl
        cases Previous.isPart_of_opens hchild
      dsimp only
      rw [← nest_eq_enter hno]
      unfold nest
      cases nested with
      | none => rfl
      | some level =>
        dsimp only [write]
        cases level.emit child rest <;> rfl
  by_cases hquestion : token.kind = .question
  · unfold emit
    rw [hquestion]
    dsimp only
    rw [hdone]
    split
    · rfl
    · rw [← nest_eq_enter (by exact nofun)]
      unfold nest
      cases nested with
      | none => rfl
      | some level =>
        dsimp only [write]
        cases level.emit .yes rest <;> rfl
  · rw [not_exists] at hbracket
    have hwrite := emit_eq_writeToken s nested ctx (d.start group) group rest hbracket hquestion
    split
    · next bracket hkind => exact absurd hkind (hbracket bracket)
    · next hkind => exact absurd hkind hquestion
    · rw [← hwrite]
      cases (d.start group).emit s nested ctx token group rest <;> rfl

/-- **A round is a move**, with the levels below put back. -/
theorem round_eq_move (s : Scope) (nested : Option Nested) (ctx : Context) (d : Draft) (t : Text) :
    d.round s nested ctx t =
      (d.move s ctx (Text.trimStart t)).2.round nested
        (Text.splitBytes (d.move s ctx (Text.trimStart t)).1 (Text.trimStart t)).2 := by
  unfold round move
  cases d.pending with
  | some group => exact closeOrContinue_eq_delimit _ _ _
  | none =>
  cases Text.trimStart t with
  | nil => rfl
  | cons c r =>
  dsimp only
  split
  · rw [Text.splitBytes_zero]
    unfold stop last
    split
    · cases d.unfinished? ctx c <;> rfl
    · rfl
  cases hnext : Token.next (c :: r) with
  | error stuck =>
    have hrest : stuck.rest = c :: r := by
      unfold Token.next at hnext
      dsimp only at hnext
      split at hnext <;> cases hnext
      rfl
    dsimp only
    rw [Text.splitBytes_zero, ← hrest]
    rfl
  | ok found =>
    obtain ⟨token, rest⟩ := found
    obtain ⟨happend, -⟩ := Token.read?_append (Token.next_eq_ok_iff.1 hnext)
    dsimp only
    rw [← happend, Text.splitBytes_size]
    exact take_eq_accept d token rest

end Draft

end Stencil
