import Stencil.Proofs.Expr.OnePass

/-!
# Proofs/Expr/Round — what a round of the emitter can do

    pending group ──closer──▸ value        token that fits ──▸ its code
         ╰──delimiter──▸ part pending         ╰─ + ─▸ " . ", or " + " whose place is kept

A round is told by what it leaves: a closed group, a group with one part more, the end of a ternary,
or a token and its code (`round_cases`, `closeOrContinue_cases`, `take_cases`).  What a level below
leaves is the code of an expression that stands there (`Nested.Writes`).

A first use: behind a binary `+` the code ends with that `+`, and where a quoted text may still turn
it into the joining of texts, the draft knows its place (`plusStands_of_round`).
-/

namespace Stencil

/-! ## Levels -/

/-- **What is emitted one level down**: the code of an expression of the grammar, or nothing where an
expression may be missing. -/
structure Nested.Writes (s : Scope) (level : Nested) : Prop where
  ends : ∀ ctx t out rest, level.emit ctx t = .ok (out, rest) →
    ∃ c r, rest = c :: r ∧ ctx.ends c = true
  written : ∀ ctx t out rest, level.emit ctx t = .ok (out, rest) →
    Draft.emptyAhead ctx t = true ∧ out = [] ∧ rest = Text.trimStart t ∨
      ∃ e : Expr, e.WellFormed s ∧ Reads t e.tokens rest ∧ out = e.code s.registry

/-- Every level writes what the reader of its depth reads. -/
theorem nestedEmitter_writes (s : Scope) (n : Nat) :
    ∀ level ∈ nestedEmitter s n, level.Writes s := by
  intro level hlevel
  have hmirrors := nestedEmitter_mirrors s n
  have hlevels := levels_innerReader s n
  rw [hlevel] at hmirrors
  generalize innerReader s n = inner at hmirrors hlevels
  cases hmirrors with
  | some hmirror =>
  next reader =>
  refine ⟨hmirror.reliable.ends, fun ctx t out rest h => ?_⟩
  cases hempty : Draft.emptyAhead ctx t with
  | true =>
    rw [hmirror.empty ctx t hempty] at h
    cases h
    exact .inl ⟨rfl, rfl, rfl⟩
  | false =>
    rw [hmirror.emit ctx t hempty] at h
    obtain ⟨⟨e, r⟩, hread, heq⟩ := bind_eq_ok_iff.1 h
    cases heq
    have hstands := hlevels.read_iff.1 hread
    exact .inr ⟨e, hstands.wellFormed, hstands.reads, rfl⟩

namespace Draft

variable {s : Scope} {nested : Option Nested} {ctx : Context} {d d' : Draft} {t rest : Text}

/-! ## What a round does -/

/-- **What a round that goes on does**: it closes a group or goes on with it, or takes a token. -/
theorem round_cases (h : d.round s nested ctx t = .ok (.more d' rest)) :
    (∃ group, d.pending = some group ∧
      { d with pending := none }.closeOrContinue nested group (Text.trimStart t) = .ok (d', rest)) ∨
    d.pending = none ∧ ∃ c r token r', Text.trimStart t = c :: r ∧ isStop c = false ∧
      Token.next (c :: r) = .ok (token, r') ∧ d.take s nested ctx token r' = .ok (d', rest) := by
  unfold round at h
  split at h
  · next group hgroup =>
    obtain ⟨found, hclose, heq⟩ := bind_eq_ok_iff.1 h
    cases heq
    exact .inl ⟨group, hgroup, hclose⟩
  next hpending =>
  split at h
  · cases h
  next c r ht =>
  split at h
  · obtain ⟨found, -, heq⟩ := bind_eq_ok_iff.1 h
    cases heq
  next hstop =>
  obtain ⟨⟨token, r'⟩, hnext, h⟩ := bind_eq_ok_iff.1 h
  obtain ⟨found, htake, heq⟩ := bind_eq_ok_iff.1 h
  cases heq
  exact .inr ⟨hpending, c, r, token, r', ht, by simpa using hstop, hnext, htake⟩

/-- What is known of a token that was taken. -/
theorem take_cases {token : Token} (h : d.take s nested ctx token t = .ok (d', rest)) :
    d.prev.clash? token (token.group d.prev.group?) = none ∧
      ∃ d₁, (d.start (token.group d.prev.group?)).emit s nested ctx token
          (token.group d.prev.group?) t = .ok (d₁, rest) ∧
        d' = { d₁ with prev := .token token (token.group d.prev.group?) } := by
  unfold take at h
  extract_lets group at h
  split at h
  · cases h
  next hclash =>
  obtain ⟨⟨d₁, r⟩, hemit, heq⟩ := bind_eq_ok_iff.1 h
  cases heq
  exact ⟨hclash, d₁, hemit, rfl⟩

/-- **What follows a part of a group**: its closer, the last branch of a ternary, or a part. -/
theorem closeOrContinue_cases {group : Context}
    (h : d.closeOrContinue nested group t = .ok (d', rest)) :
    ∃ c r, t = c :: r ∧
      ((∃ bracket, group.turn c = .ok (.close bracket) ∧ d' = d.close bracket ∧ rest = r) ∨
       (∃ d₁, group.turn c = .ok (.next .no) ∧
          (d.write " : (").nest nested .no r = .ok (d₁, rest) ∧ d' = d₁.endTernary) ∨
       ∃ next, next ≠ .no ∧ group.turn c = .ok (.next next) ∧
          (d.write (if group.isKey ∧ c = ':' then " => " else ", ")).nest nested next r =
            .ok (d', rest)) := by
  unfold closeOrContinue at h
  split at h
  · cases h
  next c r =>
  refine ⟨c, r, rfl, ?_⟩
  split at h
  · cases h
  · next bracket hturn =>
    cases h
    exact .inl ⟨bracket, hturn, rfl, rfl⟩
  · next hturn =>
    obtain ⟨⟨d₁, r'⟩, hnest, heq⟩ := bind_eq_ok_iff.1 h
    cases heq
    exact .inr (.inl ⟨d₁, hturn, hnest, rfl⟩)
  · next next hno hturn => exact .inr (.inr ⟨next, hno, hturn, h⟩)

/-- The draft behind an expression one level down. -/
theorem nest_cases (h : d.nest nested ctx t = .ok (d', rest)) :
    ∃ level ∈ nested, ∃ out, level.emit ctx t = .ok (out, rest) ∧
      d' = { d.write out with pending := some ctx } := by
  unfold nest at h
  split at h
  · cases h
  next level =>
  obtain ⟨⟨out, r⟩, hemit, heq⟩ := bind_eq_ok_iff.1 h
  cases heq
  exact ⟨level, rfl, out, hemit, rfl⟩

/-! ## The place of a plus -/

/-- **Behind a binary `+` the code ends with it**: as the joining of texts, or as a ` + ` whose place
is known. -/
def PlusStands (d : Draft) : Prop :=
  d.prev.kind? = some .plus → d.prev.group? = some .operator →
    d.pending = none ∧ ∃ front,
      d.plusAt = none ∧ d.out = front ++ " . " ∨ d.plusAt = some front.length ∧ d.out = front ++ " + "

/-- What follows a part of a group leaves the token before as it is, unless it ends the group. -/
theorem prev_of_closeOrContinue {group : Context}
    (h : d.closeOrContinue nested group t = .ok (d', rest)) :
    (∃ bracket, d'.prev = .token (Token.closes bracket) .closing) ∨ d'.prev = .ternary ∨
      d'.prev = d.prev := by
  obtain ⟨c, r, -, ⟨bracket, -, rfl, -⟩ | ⟨d₁, -, -, rfl⟩ | ⟨next, -, -, hnest⟩⟩ :=
    closeOrContinue_cases h
  · exact .inl ⟨bracket, rfl⟩
  · exact .inr (.inl rfl)
  · obtain ⟨level, -, out, -, rfl⟩ := nest_cases hnest
    exact .inr (.inr rfl)

theorem plusStands_of_round (h : d.PlusStands)
    (hround : d.round s nested ctx t = .ok (.more d' rest)) : d'.PlusStands := by
  intro hkind hgroup
  rcases round_cases hround with ⟨group, hpending, hclose⟩ |
    ⟨hpending, c, r, token, r', -, -, -, htake⟩
  · rcases prev_of_closeOrContinue hclose with ⟨bracket, hprev⟩ | hprev | hprev
    · rw [hprev] at hkind
      cases hkind
    · rw [hprev] at hkind
      cases hkind
    · rw [hprev] at hkind hgroup
      cases hpending.symm.trans (h hkind hgroup).1
  · obtain ⟨-, d₁, hemit, rfl⟩ := take_cases htake
    obtain ⟨kind, text⟩ := token
    obtain rfl : kind = .plus := Option.some.inj hkind
    rw [Option.some.inj hgroup] at hemit
    change (if d.prev.kind? = some .quoted then _ else _) = _ at hemit
    split at hemit
    · cases hemit
      exact ⟨hpending, d.out, .inl ⟨rfl, rfl⟩⟩
    · cases hemit
      exact ⟨hpending, d.out, .inr ⟨rfl, rfl⟩⟩

/-- **A quoted text behind a binary `+`** makes that `+` the joining of texts, and nothing else. -/
theorem PlusStands.joined (h : d.PlusStands) (hkind : d.prev.kind? = some .plus)
    (hgroup : d.prev.group? = some .operator) : ∃ front,
      (d.plusAt = none ∧ d.out = front ++ " . " ∨
        d.plusAt = some front.length ∧ d.out = front ++ " + ") ∧ d.joined = front ++ " . " := by
  obtain ⟨-, front, hplus⟩ := h hkind hgroup
  refine ⟨front, hplus, ?_⟩
  rw [Draft.joined, if_pos ⟨hkind, hgroup⟩]
  rcases hplus with ⟨hat, hout⟩ | ⟨hat, hout⟩
  · rw [hat, hout]
  · have hend : (front ++ " + " : Text).drop (front.length + 3) = [] :=
      List.drop_eq_nil_of_le (by rw [List.length_append]; exact Nat.le_refl _)
    rw [hat, hout]
    dsimp only
    rw [hend, List.take_left, List.append_nil]

/-- The joining of texts has the length of a ` + `. -/
theorem PlusStands.length_joined (h : d.PlusStands) : d.joined.length = d.out.length := by
  by_cases hplus : d.prev.kind? = some .plus ∧ d.prev.group? = some .operator
  · obtain ⟨front, ⟨-, hout⟩ | ⟨-, hout⟩, hjoined⟩ := h.joined hplus.1 hplus.2
    · rw [hjoined, hout]
    · have hjoin : (" . " : Text).length = 3 := rfl
      have hplus : (" + " : Text).length = 3 := rfl
      rw [hjoined, hout, List.length_append, List.length_append, hjoin, hplus]
  · rw [Draft.joined, if_neg hplus]

end Draft

end Stencil
