import Stencil.Proofs.Expr.ReplayValue

/-!
# Proofs/Expr/Hole — a value whose last group is open

    chain (        value . method (        [        (        value [
    ╰── parts, then the closer ──▸ value

A group is written part by part, and until its closer comes there is no value: there is what stands
in front of the group (`Hole`), and the parts so far, of which the context of the last one says how
they go on (`Hole.Holds`).  The closer makes a value of both (`Hole.Stands.fill`), whose tokens and
code are those of the hole, the bracket and the parts (`Hole.tokens_fill`, `Hole.code_fill`).
-/

namespace Stencil

/-! ## What follows a part -/

namespace Context

/-- The closer of a group closes it. -/
theorem turn_closer {group : Context} {bracket : Bracket}
    (h : group.bracket? = some bracket) : group.turn bracket.closer = .ok (.close bracket) := by
  rw [turn, h, Option.filter_some, if_pos (beq_self_eq_true _)]

/-- A group is closed by its own closer. -/
theorem closer_of_turn {group : Context} {c : Char} {bracket : Bracket}
    (h : group.turn c = .ok (.close bracket)) :
    group.bracket? = some bracket ∧ bracket.closer = c := by
  unfold turn at h
  split at h
  · next hfilter =>
    cases h
    obtain ⟨hbracket, hcloser⟩ := Option.filter_eq_some_iff.1 hfilter
    exact ⟨hbracket, beq_iff_eq.1 hcloser⟩
  split at h
  · cases h
  split at h <;> cases h

/-- A group goes on at a comma or a colon. -/
theorem delimiter_of_after? {group next : Context} {c : Char}
    (h : group.after? c = some next) : c = ',' ∨ c = ':' := by
  unfold after? at h
  split at h
  · split at h
    · next hc => exact .inl hc
    · cases h
  · split at h
    · next hc => exact .inl hc
    · cases h
  · split at h
    · next hc => exact .inl hc
    split at h
    · next hc => exact .inr hc
    · cases h
  · split at h
    · next hc => exact .inr hc
    · cases h
  · cases h

end Context

/-! ## Parts -/

/-- **One part more** of a group, behind a delimiter. -/
theorem Items.EndIn.part {s : Scope} {items : Items} {bracket : Bracket} {g next : Context} {c : Char}
    {e : Expr} (h : items.EndIn bracket g) (hw : items.WellFormed s) (he : e.WellFormed s)
    (hc : c = ',' ∨ c = ':') (hnext : g.after? c = some next) :
    ∃ more : Items, more.EndIn bracket next ∧ more.WellFormed s ∧
      more.code s.registry = items.code s.registry ++
        (if g.isKey ∧ c = ':' then " => " else ", " : Text) ++ e.code s.registry ∧
      more.tokens = items.tokens ++
        (if c = ':' then Token.colon else Token.comma) :: e.tokens := by
  obtain ⟨hmore, hcode⟩ := h.next hc hnext s.registry e
  refine ⟨_, hmore, ?_, hcode, ?_⟩
  · rcases hc with rfl | rfl
    · exact ⟨hw, he⟩
    · obtain ⟨before, key, rfl, -⟩ := h.colon hnext e
      exact ⟨hw.1, hw.2, he⟩
  · rcases hc with rfl | rfl
    · rw [if_neg (by decide), if_neg (by decide), Items.tokens, Items.separator_of_ne h.ne_empty]
      rfl
    · obtain ⟨before, key, rfl, -⟩ := h.colon hnext e
      rw [if_pos rfl, if_pos rfl]
      simp [Items.withValue, Items.tokens]

/-! ## Open groups -/

/-- **A value whose last group is open**: what stands in front of the group. -/
inductive Hole
  /-- The arguments of a chain. -/
  | call (chain : Chain) (target : Reference)
  /-- The arguments of a wrapper method on a value. -/
  | method (value : Value) (name : Text)
  | literal (bracket : Bracket)
  | paren
  /-- The index of a value. -/
  | index (value : Value) (bracket : Bracket)

namespace Hole

/-- The bracket that opens the group. -/
def bracket : Hole → Bracket
  | call .. | method .. | paren => .paren
  | literal bracket | index _ bracket => bracket

/-- The context of the first part. -/
def first : Hole → Context
  | call .. | method .. => .argument true
  | literal bracket => .item bracket .first
  | paren => .paren
  | index _ bracket => .index bracket

/-- The tokens in front of the bracket. -/
def tokens : Hole → List Token
  | call chain _ => chain.tokens
  | method value name => value.tokens ++ [Token.dot, Token.named name]
  | literal _ | paren => []
  | index value _ => value.tokens

/-- The code in front of the bracket. -/
def code (r : Registry) : Hole → Text
  | call _ target => target.code r
  | method value name => r.wrapper.opening ++ value.code r ++ ")->" ++ name
  | literal _ | paren => []
  | index value _ => value.code r

/-- What stands in front of the group is of the grammar. -/
def WellFormed (s : Scope) : Hole → Prop
  | call chain target => chain.Denotes s true target
  | method value name =>
    value.WellFormed s ∧ value.isName = false ∧ s.registry.wrapper.contains name = true
  | literal bracket => bracket ≠ .paren
  | paren => True
  | index value bracket => value.WellFormed s ∧ bracket ≠ .paren

/-- The value with its last group, if the parts suit it. -/
def fill : Hole → Items → Option Value
  | call chain target, args => some (.call chain target args)
  | method value name, args => some (.method value name args)
  | literal bracket, items => some (.literal bracket items)
  | paren, .item .empty e => some (.paren e)
  | index value bracket, .item .empty e => some (.index value bracket e)
  | _, _ => none

/-- **The parts that a group has so far**, of which the last was read in the context `g`. -/
def Holds (hole : Hole) (g : Context) (items : Items) : Prop :=
  match hole with
  | call .. | method .. => g.isArgument = true ∧ items.EndIn .paren g
  | literal bracket => g.isArgument = false ∧ items.EndIn bracket g
  | paren | index .. => g = hole.first ∧ ∃ e, items = .item .empty e

variable {s : Scope} {hole : Hole} {items : Items} {g : Context} {v : Value}

theorem tokens_fill (h : hole.fill items = some v) :
    v.tokens = hole.tokens ++ Token.opens hole.bracket ::
      (items.tokens ++ [Token.closes hole.bracket]) := by
  unfold fill at h
  split at h <;> cases h
  · rfl
  · simp [Value.tokens, tokens, bracket]
  · rfl
  · rfl
  · rfl

theorem code_fill (hw : hole.WellFormed s) (h : hole.fill items = some v) (r : Registry) :
    v.code r = hole.code r ++ hole.bracket.openCode ++ items.code r ++
      hole.bracket.closeCode := by
  unfold fill at h
  split at h <;> cases h
  · simp [Value.code, code, bracket, Bracket.openCode, Bracket.closeCode]
  · simp [Value.code, code, bracket, Bracket.openCode, Bracket.closeCode]
  · rw [bracket, Bracket.openCode_of_ne hw, Bracket.closeCode_of_ne hw]
    rfl
  · rfl
  · rw [bracket, Bracket.openCode_of_ne hw.2, Bracket.closeCode_of_ne hw.2]
    rfl

theorem last_fill (h : hole.fill items = some v) :
    v.last = .token (Token.closes hole.bracket) .closing ∧ v.isName = false := by
  unfold fill at h
  split at h <;> cases h <;> exact ⟨rfl, rfl⟩

/-- The first part. -/
theorem holds_first (hole : Hole) (e : Expr) : hole.Holds hole.first (.item .empty e) := by
  cases hole with
  | call | method => exact ⟨rfl, .first (.inl ⟨rfl, rfl⟩) e⟩
  | literal => exact ⟨rfl, .first (.inr rfl) e⟩
  | paren | index => exact ⟨rfl, e, rfl⟩

theorem Holds.bracket? (h : hole.Holds g items) : g.bracket? = some hole.bracket := by
  cases hole with
  | call | method | literal => exact h.2.bracket?
  | paren | index =>
    rw [h.1]
    rfl

/-- The end of a part leads to no branch of a ternary. -/
theorem Holds.ne_no {next : Context} {c : Char} (h : hole.Holds g items)
    (hnext : g.after? c = some next) : next ≠ .no := by
  refine Context.ne_no_of_after? hnext ?_
  rintro rfl
  cases h.bracket?

/-- **One part more**, which a group in parentheses or an index does not take. -/
theorem Holds.next {next : Context} {c : Char} {e : Expr} (h : hole.Holds g items)
    (hw : items.WellFormed s) (he : e.WellFormed s) (hc : c = ',' ∨ c = ':')
    (hnext : g.after? c = some next) :
    ∃ more, hole.Holds next more ∧ more.WellFormed s ∧
      more.code s.registry = items.code s.registry ++
        (if g.isKey ∧ c = ':' then " => " else ", " : Text) ++ e.code s.registry ∧
      more.tokens = items.tokens ++
        (if c = ':' then Token.colon else Token.comma) :: e.tokens := by
  cases hole with
  | call | method | literal =>
    obtain ⟨more, hmore, hpart⟩ := h.2.part hw he hc hnext
    exact ⟨more, ⟨(Context.isArgument_after? hnext).trans h.1, hmore⟩, hpart⟩
  | paren | index =>
    rw [h.1] at hnext
    cases hnext

/-- **The parts of a group make a value.** -/
theorem Holds.fill (h : hole.Holds g items) (hhole : hole.WellFormed s)
    (hw : items.WellFormed s) : ∃ v, hole.fill items = some v ∧ v.WellFormed s := by
  cases hole with
  | call => exact ⟨_, rfl, hhole, h.2.isSingles h.1, hw⟩
  | method => exact ⟨_, rfl, hhole.1, hhole.2.1, hhole.2.2, h.2.isSingles h.1, hw⟩
  | literal => exact ⟨_, rfl, hhole, hw⟩
  | paren =>
    obtain ⟨-, e, rfl⟩ := h
    exact ⟨_, rfl, hw.2⟩
  | index =>
    obtain ⟨-, e, rfl⟩ := h
    exact ⟨_, rfl, hhole.1, hhole.2, hw.2⟩

/-- **An open group before a text**: it has parts, or it has none and its closer is ahead. -/
def Stands (hole : Hole) (g : Context) (items : Items) (t : Text) : Prop :=
  hole.Holds g items ∨ items = .empty ∧ g = hole.first ∧
    hole.first.allowsEmpty hole.bracket.closer = true ∧
      (Text.trimStart t).head? = some hole.bracket.closer

/-- Where a group may have no parts its closer stands. -/
theorem eq_closer_of_allowsEmpty {c : Char} (h : hole.first.allowsEmpty c = true) :
    c = hole.bracket.closer := by
  cases hole with
  | call | method | literal => exact beq_iff_eq.1 h
  | paren | index => cases h

theorem Stands.bracket? {t : Text} (h : hole.Stands g items t) :
    g.bracket? = some hole.bracket := by
  rcases h with hholds | ⟨-, rfl, -, -⟩
  · exact hholds.bracket?
  · cases hole <;> rfl

/-- **A group that is closed is a value.** -/
theorem Stands.fill {t : Text} (h : hole.Stands g items t) (hhole : hole.WellFormed s)
    (hw : items.WellFormed s) : ∃ v, hole.fill items = some v ∧ v.WellFormed s := by
  rcases h with hholds | ⟨rfl, -, hempty, -⟩
  · exact hholds.fill hhole hw
  cases hole with
  | call => exact ⟨_, rfl, hhole, rfl, trivial⟩
  | method => exact ⟨_, rfl, hhole.1, hhole.2.1, hhole.2.2, rfl, trivial⟩
  | literal => exact ⟨_, rfl, hhole, trivial⟩
  | paren | index => cases hempty

/-- Only a group that has parts goes on. -/
theorem Stands.holds {t r : Text} {c : Char} {next : Context} (h : hole.Stands g items t)
    (ht : Text.trimStart t = c :: r) (hturn : g.turn c = .ok (.next next)) :
    hole.Holds g items := by
  have hbracket := h.bracket?
  rcases h with hholds | ⟨-, -, -, hhead⟩
  · exact hholds
  · rw [ht] at hhead
    obtain rfl := Option.some.inj hhead
    cases hturn.symm.trans (Context.turn_closer hbracket)

end Hole

end Stencil
