import Stencil.Proofs.Template.Faithful

/-!
# Proofs/Template/Bounded — a compiler that ends, within its bounds

    offset      ──never back, and on with every turn of a loop──▸
    nesting     = the expressions around the one that is read  ≤ 128

What a step does to the cursor and to the counter is said once for every task (`Plain`, `follow`,
`leave`), and from there carried along all steps of a machine.  With the run that comes to the result
of the compiler (`yields_compile`) this bounds all that a compilation does (`compile_bounded`).
-/

namespace Stencil

namespace Task

/-- The number of expressions around the one that is read. -/
def around : Task → Nat
  | express _ _ outer | leave _ _ _ outer => outer.length
  | _ => 0

/-- The code of the fault that a machine is left with. -/
def code? : Task → Option Code
  | leave _ _ (.error fault) _ => some fault.code
  | report _ fault => some fault.code
  | done (.error d) => some d.code
  | _ => none

end Task

namespace Cursor

variable {c c' : Cursor}

theorem passes_of_passHtmlClose? (h : c.passHtmlClose? = some c') : c.Passes c' := by
  unfold passHtmlClose? at h
  dsimp only at h
  split at h
  · obtain ⟨⟨passed, c''⟩, hpass, rfl⟩ := Option.map_eq_some_iff.1 h
    exact (passes_of_pass? hpass).1
  · cases h
    exact .refl c

theorem passes_of_passComment? (h : c.passComment? = some c') : c.Passes c' := by
  unfold passComment? at h
  split at h
  · obtain ⟨⟨passed, c''⟩, hpass, hclose⟩ := Option.bind_eq_some_iff.1 h
    exact (passes_of_pass? hpass).1.trans (passes_of_passHtmlClose? hclose)
  · obtain ⟨⟨passed, c''⟩, hpass, rfl⟩ := Option.map_eq_some_iff.1 h
    exact (passes_of_pass? hpass).1

end Cursor

namespace Machine

variable {c : Compiler} {m m' : Machine} {tag : OpenTag} {outer : List Level}

/-! ## Steps outside expressions -/

/-- **A step outside expressions**: it goes forward, leaves the counter as it is, and leads to a task
that is not within an expression and is not about one that is too deep. -/
structure Plain (m m' : Machine) : Prop where
  passes : m.cursor.Passes m'.cursor
  nesting : m'.nesting = m.nesting
  around : m'.task.around = 0
  code : m'.task.code? ≠ some .tooDeep

theorem guard_plain (h : m.guard c = some m') : Plain m m' := by
  obtain ⟨found, -, rfl⟩ := Option.map_eq_some_iff.1 h
  cases found with
  | none => exact ⟨.refl _, rfl, rfl, nofun⟩
  | some found => exact ⟨.refl _, rfl, rfl, nofun⟩

theorem finish_plain (h : m.finish = some m') : Plain m m' ∧ ∃ result, m'.task = .done result := by
  obtain ⟨⟨passed, cursor⟩, hpass, rfl⟩ := Option.map_eq_some_iff.1 h
  refine ⟨⟨(Cursor.passes_of_pass? hpass).1, rfl, rfl, ?_⟩, _, rfl⟩
  dsimp only
  unfold needClosed
  split
  · next hclosed =>
    split at hclosed
    · cases hclosed
      rintro ⟨⟩
    · cases hclosed
  · rintro ⟨⟩

theorem secondElse_of_plan {blocks : List Block} {line : Nat} {t : Text} {command : Command}
    {fault : Fault} (h : command.plan blocks line t = .fail fault) :
    ∃ symbol, fault = .secondElse symbol := by
  unfold Command.plan at h
  repeat' split at h
  all_goals cases h
  all_goals exact ⟨_, rfl⟩

/-- A tag that begins passes nothing. -/
theorem begin_plain (m : Machine) (tag : OpenTag) (opener : Text) : Plain m (m.begin tag opener) := by
  unfold begin
  cases hplan : tag.command.plan m.blocks tag.line m.cursor.rest with
  | express => exact ⟨.refl _, rfl, rfl, nofun⟩
  | settle statement blocks => exact ⟨.refl _, rfl, rfl, nofun⟩
  | stray => exact ⟨.refl _, rfl, rfl, nofun⟩
  | fail fault =>
    obtain ⟨symbol, rfl⟩ := secondElse_of_plan hplan
    exact ⟨.refl _, rfl, rfl, nofun⟩

theorem Plain.head {m₁ : Machine} (h : Plain m m') (hpasses : m₁.cursor.Passes m.cursor)
    (hnesting : m.nesting = m₁.nesting) : Plain m₁ m' :=
  ⟨hpasses.trans h.passes, h.nesting.trans hnesting, h.around, h.code⟩

/-- **An opener is passed**, whatever stands behind it. -/
theorem enter_plain {found : Opener.InBytes} (h : m.enter found = some m') :
    Plain m m' ∧ m.cursor.offset < m'.cursor.offset := by
  obtain ⟨⟨literal, first⟩, hliteral, h⟩ := Option.bind_eq_some_iff.1 h
  obtain ⟨⟨opener, cursor⟩, hopener, h⟩ := Option.bind_eq_some_iff.1 h
  obtain ⟨hfirst, hoffset⟩ := Cursor.passes_of_pass? hliteral
  obtain ⟨hcursor, hoffset'⟩ := Cursor.passes_of_pass? hopener
  have hpasses := hfirst.trans hcursor
  have hsize : 0 < found.size := Nat.succ_pos _
  have hlt : m.cursor.offset < cursor.offset := by omega
  dsimp only at h
  split at h
  · obtain ⟨front, -, h⟩ := Option.bind_eq_some_iff.1 h
    obtain ⟨back, -, rfl⟩ := Option.map_eq_some_iff.1 h
    exact ⟨⟨hpasses, rfl, rfl, nofun⟩, hlt⟩
  split at h
  · obtain ⟨cursor', hcomment, rfl⟩ := Option.map_eq_some_iff.1 h
    have hcomment := Cursor.passes_of_passComment? hcomment
    exact ⟨⟨hpasses.trans hcomment, rfl, rfl, nofun⟩, Nat.lt_of_lt_of_le hlt hcomment.offset_le⟩
  · next command _ =>
    cases h
    have hbegin := begin_plain { m with cursor := cursor, out := m.out ++ literal }
      ⟨first.offset, first.line, command⟩ opener
    exact ⟨hbegin.head hpasses rfl, Nat.lt_of_lt_of_le hlt hbegin.passes.offset_le⟩

/-- **A turn of the loop over the openers** ends the template or goes forward. -/
theorem scan_plain (h : m.scan = some m') :
    Plain m m' ∧ ((∃ result, m'.task = .done result) ∨ m.cursor.offset < m'.cursor.offset) := by
  obtain ⟨found, -, h⟩ := Option.bind_eq_some_iff.1 h
  cases found with
  | none => exact ⟨(finish_plain h).1, .inl (finish_plain h).2⟩
  | some found => exact ⟨(enter_plain h).1, .inr (enter_plain h).2⟩

theorem close_plain {statement : Statement} (h : m.close c tag statement = some m') :
    Plain m m' := by
  have hblanks := Cursor.passes_skipBlanks m.cursor
  unfold close at h
  rw [Cursor.passBlanks?_eq, Option.bind_some] at h
  split at h
  · cases h
    exact ⟨hblanks, rfl, rfl, nofun⟩
  split at h
  · obtain ⟨⟨bracket, cursor'⟩, hbracket, h⟩ := Option.bind_eq_some_iff.1 h
    obtain ⟨cursor'', hhtml, h⟩ := Option.bind_eq_some_iff.1 h
    obtain ⟨raw, -, rfl⟩ := Option.map_eq_some_iff.1 h
    have hclose := (Cursor.passes_of_pass? hbracket).1.trans (Cursor.passes_of_passHtmlClose? hhtml)
    exact ⟨hblanks.trans hclose, rfl, rfl, nofun⟩
  · cases h
    exact ⟨hblanks, rfl, rfl, nofun⟩

/-! ## Steps within expressions -/

/-- **An expression one level down is entered**: the next move of the draft leads to it. -/
def Enters (c : Compiler) (m : Machine) : Prop :=
  ∃ tag level outer draft child, m.task = .express tag level outer ∧
    (level.draft.move (scope c m.blocks) level.ctx (Text.trimStart m.cursor.rest)).2 =
      .enter draft child

/-- **A turn of the loop over the tokens of an expression**: what the draft does next is followed
behind what it passes, and that is something if the expression goes on. -/
theorem express_cases {level : Level} (h : m.express c tag level outer = some m') :
    ∃ cursor move, m.cursor.Passes cursor ∧
      (move.goesOn = true → m.cursor.offset < cursor.offset) ∧
      (level.draft.move (scope c m.blocks) level.ctx (Text.trimStart m.cursor.rest)).2 = move ∧
      m' = { m with cursor := cursor }.follow tag level.ctx outer move := by
  have hblanks := Cursor.passes_skipBlanks m.cursor
  unfold express at h
  rw [Cursor.passBlanks?_eq, Option.bind_some] at h
  obtain ⟨⟨passed, cursor⟩, hpass, heq⟩ := Option.map_eq_some_iff.1 h
  obtain ⟨hpasses, hoffset⟩ := Cursor.passes_of_pass? hpass
  refine ⟨cursor, _, hblanks.trans hpasses, fun hgoes => ?_, rfl, heq.symm⟩
  have hpos := Draft.move_pos hgoes
  rw [hoffset]
  exact Nat.lt_of_le_of_lt hblanks.offset_le (Nat.lt_add_of_pos_right hpos)

/-- **It leaves the expression or goes forward.** -/
theorem express_forward {level : Level} (h : m.express c tag level outer = some m') :
    m.cursor.Passes m'.cursor ∧
      ((∃ result, m'.task = .leave tag level.ctx result outer) ∨
        m.cursor.offset < m'.cursor.offset) := by
  obtain ⟨cursor, move, hpasses, hforward, -, rfl⟩ := express_cases h
  cases move with
  | fail fault => exact ⟨hpasses, .inl ⟨_, rfl⟩⟩
  | finish code => exact ⟨hpasses, .inl ⟨_, rfl⟩⟩
  | stay draft => exact ⟨hpasses, .inr (hforward rfl)⟩
  | enter draft child =>
    unfold follow
    dsimp only
    split
    · exact ⟨hpasses, .inl ⟨_, rfl⟩⟩
    · exact ⟨hpasses, .inr (hforward rfl)⟩

/-- **What it is to leave an expression**: the counter goes down by one level, if there is one, and a
fault goes along. -/
theorem leave_cases {ctx : Context} {result : Except Fault Text}
    (h : m.leave tag ctx result outer = some m') :
    m'.cursor = m.cursor ∧ m'.nesting + outer.length = m.nesting + m'.task.around ∧
      m'.nesting ≤ m.nesting ∧
      m'.task.code? = (Task.leave tag ctx result outer).code? := by
  cases outer with
  | nil =>
    unfold leave at h
    split at h
    · next hnil =>
      cases result <;> cases h <;> exact ⟨rfl, rfl, Nat.le_refl _, rfl⟩
    · next hcons => cases hcons
  | cons level outer =>
    unfold leave at h
    dsimp only at h
    split at h
    · cases h
    · next hzero =>
      have hcount : m.nesting - 1 + (level :: outer).length = m.nesting + outer.length := by
        rw [List.length_cons]
        omega
      cases result <;> cases h <;> exact ⟨rfl, hcount, Nat.sub_le _ _, rfl⟩

/-! ## Every step -/

/-- **No step goes back.** -/
theorem step_passes (h : m.step c = some m') : m.cursor.Passes m'.cursor := by
  unfold step at h
  split at h
  · exact (guard_plain h).passes
  · exact (scan_plain h).1.passes
  · exact (express_forward h).1
  · rw [(leave_cases h).1]
    exact .refl _
  · exact (close_plain h).passes
  · obtain ⟨raw, -, rfl⟩ := Option.map_eq_some_iff.1 h
    exact .refl _
  · cases h
    exact .refl _

/-- **The counter counts** the expressions around the one that is read, and keeps its limit. -/
structure Counted (m : Machine) : Prop where
  around : m.nesting = m.task.around
  limit : m.nesting ≤ maxNesting

theorem Plain.counted (h : Plain m m') (hm : m.Counted) (htask : m.task.around = 0) :
    m'.Counted := by
  have hzero : m'.nesting = 0 := h.nesting.trans (hm.around.trans htask)
  exact ⟨hzero.trans h.around.symm, hzero ▸ Nat.zero_le _⟩

theorem follow_counted {ctx : Context} {move : Draft.Move} (haround : m.nesting = outer.length)
    (hlimit : m.nesting ≤ maxNesting) : (m.follow tag ctx outer move).Counted := by
  cases move with
  | fail fault => exact ⟨haround, hlimit⟩
  | finish code => exact ⟨haround, hlimit⟩
  | stay draft => exact ⟨haround, hlimit⟩
  | enter draft child =>
    unfold follow
    dsimp only
    split
    · exact ⟨haround, hlimit⟩
    · next hlevel => exact ⟨congrArg (· + 1) haround, Nat.not_le.1 hlevel⟩

/-- **Every step keeps count.** -/
theorem step_counted (h : m.step c = some m') (hm : m.Counted) : m'.Counted := by
  unfold step at h
  split at h
  · next htask => exact (guard_plain h).counted hm (by rw [htask]; rfl)
  · next htask => exact (scan_plain h).1.counted hm (by rw [htask]; rfl)
  · next htask =>
    obtain ⟨cursor, move, -, -, -, rfl⟩ := express_cases h
    have haround := hm.around
    rw [htask] at haround
    exact follow_counted haround hm.limit
  · next htask =>
    obtain ⟨-, hcount, hle, -⟩ := leave_cases h
    have haround := hm.around
    rw [htask, Task.around] at haround
    exact ⟨by omega, Nat.le_trans hle hm.limit⟩
  · next htask => exact (close_plain h).counted hm (by rw [htask]; rfl)
  · next htask =>
    obtain ⟨raw, -, rfl⟩ := Option.map_eq_some_iff.1 h
    have haround := hm.around
    rw [htask] at haround
    exact ⟨haround, hm.limit⟩
  · cases h
    exact hm

/-- **A machine that is too deep was so before, or goes too deep now.** -/
theorem step_code (h : m.step c = some m') (hcode : m'.task.code? = some .tooDeep) :
    m.task.code? = some .tooDeep ∨ m.Enters c ∧ maxNesting ≤ m.nesting := by
  unfold step at h
  split at h
  · exact absurd hcode (guard_plain h).code
  · exact absurd hcode (scan_plain h).1.code
  · next tag level outer htask =>
    obtain ⟨cursor, move, -, -, hmove, rfl⟩ := express_cases h
    cases move with
    | fail fault => exact absurd (Option.some.inj hcode) (Draft.code_ne_tooDeep_of_move hmove)
    | finish code => cases hcode
    | stay draft => cases hcode
    | enter draft child =>
      unfold follow at hcode
      dsimp only at hcode
      split at hcode
      · next hlevel => exact .inr ⟨⟨tag, level, outer, draft, child, htask, hmove⟩, hlevel⟩
      · cases hcode
  · next htask =>
    rw [htask, ← (leave_cases h).2.2.2]
    exact .inl hcode
  · exact absurd hcode (close_plain h).code
  · next htask =>
    obtain ⟨raw, -, rfl⟩ := Option.map_eq_some_iff.1 h
    rw [htask]
    exact .inl hcode
  · cases h
    exact .inl hcode

/-- **A fault stays** what it is. -/
theorem step_code_of_code {code : Code} (h : m.step c = some m') (hcode : m.task.code? = some code) :
    m'.task.code? = some code := by
  unfold step at h
  split at h
  · next htask => rw [htask] at hcode; cases hcode
  · next htask => rw [htask] at hcode; cases hcode
  · next htask => rw [htask] at hcode; cases hcode
  · next htask =>
    rw [(leave_cases h).2.2.2, ← htask]
    exact hcode
  · next htask => rw [htask] at hcode; cases hcode
  · next htask =>
    obtain ⟨raw, -, rfl⟩ := Option.map_eq_some_iff.1 h
    rw [htask] at hcode
    exact hcode
  · cases h
    exact hcode

/-- **Where the limit is reached no expression is entered.** -/
theorem step_of_enters (h : m.step c = some m') (henters : m.Enters c)
    (hlevel : maxNesting ≤ m.nesting) : m'.task.code? = some .tooDeep := by
  obtain ⟨tag, level, outer, draft, child, htask, hmove⟩ := henters
  unfold step at h
  rw [htask] at h
  obtain ⟨cursor, move, -, -, hmove', rfl⟩ := express_cases h
  obtain rfl := hmove.symm.trans hmove'
  unfold follow
  dsimp only
  rw [if_pos hlevel]
  rfl

/-! ## Runs -/

section Runs

variable {source : Text}

theorem Reaches.counted (h : Reaches c (start source) m) : m.Counted := by
  induction h with
  | refl => exact ⟨rfl, Nat.zero_le _⟩
  | tail _ hstep ih => exact step_counted hstep ih

/-- **The cursor stands at an edge of the source.** -/
theorem Reaches.behind (h : Reaches c (start source) m) :
    ∃ passed rest, Source.normalize source = passed ++ rest ∧ m.cursor = .behind passed rest := by
  induction h with
  | refl => exact ⟨[], _, rfl, rfl⟩
  | @tail m₁ m₂ _ hstep ih =>
    obtain ⟨passed, rest, hsource, hcursor⟩ := ih
    obtain ⟨front, rest', rfl, hnext⟩ := (hcursor ▸ step_passes hstep).behind
    exact ⟨passed ++ front, rest', by rw [hsource, List.append_assoc], hnext⟩

theorem Reaches.code {code : Code} (h : Reaches c m m') (hcode : m.task.code? = some code) :
    m'.task.code? = some code := by
  induction h with
  | refl => exact hcode
  | tail _ hstep ih => exact step_code_of_code hstep ih

/-- A machine that is too deep has come to where an expression was entered at the limit. -/
theorem Reaches.enters (h : Reaches c (start source) m) (hcode : m.task.code? = some .tooDeep) :
    ∃ m', Reaches c (start source) m' ∧ maxNesting ≤ m'.nesting ∧ m'.Enters c := by
  induction h with
  | refl => cases hcode
  | tail hreaches hstep ih =>
    rcases step_code hstep hcode with hbefore | ⟨henters, hlevel⟩
    · exact ih hbefore
    · exact ⟨_, hreaches, hlevel, henters⟩

/-- A machine that is done stays as it is. -/
theorem Reaches.eq_of_done {result : Except Diagnostic Text} (h : Reaches c m m')
    (hdone : m.task = .done result) : m' = m := by
  induction h with
  | refl => rfl
  | tail _ hstep ih =>
    subst ih
    unfold step at hstep
    rw [hdone] at hstep
    exact (Option.some.inj hstep).symm

/-- **Every machine on the way comes to the result of the compiler.** -/
theorem Reaches.yields_compile (h : Reaches c (start source) m) : Yields c m (c.compile source) := by
  obtain ⟨last, hlast, hdone⟩ := Machine.yields_compile c source
  have hunique : Relator.RightUnique fun m m' : Machine => m.step c = some m' :=
    fun _ _ _ h k => Option.some.inj (h.symm.trans k)
  rcases Relation.ReflTransGen.total_of_right_unique hunique h hlast with hto | hfrom
  · exact ⟨last, hto, hdone⟩
  · obtain rfl := Reaches.eq_of_done hfrom hdone
    exact ⟨m, .refl, hdone⟩

/-- **No machine misses an edge**, nor counts below zero. -/
theorem Reaches.exists_step (h : Reaches c (start source) m) : ∃ m', m.step c = some m' := by
  obtain ⟨last, hlast, hdone⟩ := h.yields_compile
  rcases Relation.ReflTransGen.cases_head hlast with rfl | ⟨m', hstep, -⟩
  · exact ⟨m, by unfold step; rw [hdone]⟩
  · exact ⟨m', hstep⟩

/-- An expression that goes too deep is reported as that. -/
theorem Reaches.tooDeep (h : Reaches c (start source) m) (hlevel : maxNesting ≤ m.nesting)
    (henters : m.Enters c) : ∃ d, c.compile source = .error d ∧ d.code = .tooDeep := by
  obtain ⟨m', hstep⟩ := h.exists_step
  obtain ⟨last, hlast, hdone⟩ := Reaches.yields_compile (h.tail hstep)
  have hcode := Reaches.code hlast (step_of_enters hstep henters hlevel)
  rw [hdone] at hcode
  cases hresult : c.compile source with
  | error d =>
    rw [hresult] at hcode
    exact ⟨d, rfl, Option.some.inj hcode⟩
  | ok out =>
    rw [hresult] at hcode
    cases hcode

end Runs

/-- **A compilation ends within its bounds**, for every compiler and every source.  The machine comes
to the result of the compiler; wherever it is on the way it has a step, so no cut misses an edge and
the counter is never below zero, and its cursor stands at an edge of the source.  No step goes back,
and a turn of one of the two loops ends the loop or goes forward.  The counter is at each moment the
number of expressions around the one that is read: it never exceeds 128, and is the same when an
expression is left, with its code or with a fault, as when it was entered.  A template is refused as
too deep exactly if an expression is to be entered while the counter is at 128. -/
theorem compile_bounded (c : Compiler) (source : Text) :
    Yields c (start source) (c.compile source) ∧
    (∀ m, Reaches c (start source) m → (∃ m', m.step c = some m') ∧
      ∃ passed rest, Source.normalize source = passed ++ rest ∧ m.cursor = .behind passed rest) ∧
    (∀ m m', Reaches c (start source) m → m.step c = some m' →
      m.cursor.offset ≤ m'.cursor.offset ∧
      (m.task = .scan →
        (∃ result, m'.task = .done result) ∨ m.cursor.offset < m'.cursor.offset) ∧
      ∀ tag level outer, m.task = .express tag level outer →
        (∃ result, m'.task = .leave tag level.ctx result outer) ∨
          m.cursor.offset < m'.cursor.offset) ∧
    (∀ m, Reaches c (start source) m → m.nesting = m.task.around ∧ m.nesting ≤ 128) ∧
    (∀ m m' tag level ctx result outer, Reaches c (start source) m → Reaches c m m' →
      m.task = .express tag level outer → m'.task = .leave tag ctx result outer →
      m'.nesting = m.nesting) ∧
    ((∃ d, c.compile source = .error d ∧ d.code = .tooDeep) ↔
      ∃ m, Reaches c (start source) m ∧ m.nesting = 128 ∧ m.Enters c) := by
  refine ⟨yields_compile c source, fun m hm => ⟨hm.exists_step, hm.behind⟩, fun m m' _ hstep => ?_,
    fun m hm => ⟨hm.counted.around, hm.counted.limit⟩, ?_, ?_, ?_⟩
  · refine ⟨(step_passes hstep).offset_le, fun htask => ?_, fun tag level outer htask => ?_⟩
    · rw [step, htask] at hstep
      exact (scan_plain hstep).2
    · rw [step, htask] at hstep
      exact (express_forward hstep).2
  · intro m m' tag level ctx result outer hm hm' htask htask'
    have hbefore := hm.counted.around
    have hafter := (Reaches.counted (hm.trans hm')).around
    rw [htask] at hbefore
    rw [htask'] at hafter
    exact hafter.trans hbefore.symm
  · rintro ⟨d, hresult, hcode⟩
    obtain ⟨last, hlast, hdone⟩ := yields_compile c source
    have hlastCode : last.task.code? = some .tooDeep := by
      rw [hdone, hresult, ← hcode]
      rfl
    obtain ⟨m, hm, hlevel, henters⟩ := hlast.enters hlastCode
    exact ⟨m, hm, Nat.le_antisymm hm.counted.limit hlevel, henters⟩
  · rintro ⟨m, hm, hlevel, henters⟩
    exact hm.tooDeep (Nat.le_of_eq hlevel.symm) henters

/-! ## A level too many -/

/-- What is known of an expression behind a bracket at its start. -/
def bracketDraft : Draft where
  prev := .token ⟨.opening .paren, "("⟩ .opening
  out := "("
  started := true
  span := some 0

/-- A bracket at the start of an expression enters one level down. -/
theorem round_bracket (s : Scope) (nested : Option Nested) (ctx : Context) (t : Text) :
    Draft.round s nested ctx {} ('(' :: t) =
      (Draft.Move.enter bracketDraft .paren).round nested t := by
  have hnext : Token.next ('(' :: t) = .ok (⟨.opening .paren, "("⟩, t) := rfl
  have htrim : Text.trimStart ('(' :: t) = '(' :: t := Text.trimStart_cons (by decide) t
  have hmove : Draft.move s ctx {} ('(' :: t) = (1, .enter bracketDraft .paren) := by
    unfold Draft.move
    dsimp only
    rw [if_neg (by decide), hnext]
    rfl
  rw [Draft.round_eq_move, htrim, hmove]
  exact congrArg (Draft.Move.round nested · _) (congrArg Prod.snd (Text.splitBytes_size ['('] t))

/-- **One bracket more than there are levels below** is one too many. -/
theorem emitExpr_brackets (s : Scope) (n : Nat) (ctx : Context) (t : Text) :
    emitExpr s (nestedEmitter s n) ctx (List.replicate (n + 1) '(' ++ t) =
      .error ⟨.tooDeep maxNesting, t⟩ := by
  induction n generalizing ctx with
  | zero =>
    rw [emitExpr, Draft.run_eq]
    exact congrArg (· >>= _) (round_bracket s none ctx t)
  | succ n ih =>
    rw [emitExpr, Draft.run_eq, List.replicate_succ, List.cons_append, round_bracket]
    unfold nestedEmitter Draft.Move.round
    dsimp only
    rw [ih]
    rfl

/-- A tag of 129 opening brackets. -/
def brackets : Text := "[=" ++ List.replicate 129 '('

theorem tooDeep_of_brackets (c : Compiler) :
    ∃ d, c.compile brackets = .error d ∧ d.code = .tooDeep := by
  have hnormal : Source.normalize brackets = brackets := by decide +kernel
  have hhost : HostTag.reject c.shortTags brackets = .ok () := by
    cases c.shortTags <;> decide +kernel
  have hfind : Opener.find? brackets = some ⟨[], [], 0, '=', List.replicate 129 '('⟩ := by
    decide +kernel
  have htag : readTag ⟨c.registry, 0⟩ (List.replicate 129 '(') = .error ⟨.tooDeep maxNesting, []⟩ := by
    have hemit := emitExpr_brackets ⟨c.registry, 0⟩ maxNesting .tag []
    have hread := (emitTag_eq ⟨c.registry, 0⟩ _).symm.trans hemit
    rw [List.append_nil, show maxNesting + 1 = 129 from rfl] at hread
    generalize readTag ⟨c.registry, 0⟩ (List.replicate 129 '(') = x at hread
    cases x with
    | error stuck =>
      cases hread
      rfl
    | ok found => cases hread
  have hread : ∃ d, readSegment c.registry [] 1 ⟨[], [], 0, '=', List.replicate 129 '('⟩ = .error d ∧
      d.code = .tooDeep := by
    unfold readSegment readStatement readCommand
    rw [show Command.ofChar? '=' = some .echo from rfl]
    dsimp only
    rw [if_neg (Nat.lt_irrefl 0), show Block.loops [] = 0 from rfl, htag]
    exact ⟨_, rfl, rfl⟩
  obtain ⟨d, hread, hcode⟩ := hread
  refine ⟨d, ?_, hcode⟩
  unfold Compiler.compile Compiler.segments
  dsimp only
  rw [hnormal, hhost]
  dsimp only
  rw [scan_of_error hfind hread]

/-- The machine before 129 opening brackets comes to where all but one are entered. -/
theorem compile_bounded_brackets :
    ∃ m, Reaches ⟨.standard, false⟩ (start brackets) m ∧ m.nesting = 128 ∧
      m.Enters ⟨.standard, false⟩ := by
  obtain ⟨-, -, -, -, -, htooDeep⟩ := compile_bounded ⟨.standard, false⟩ brackets
  exact htooDeep.1 (tooDeep_of_brackets _)

end Machine

end Stencil
