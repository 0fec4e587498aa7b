import Stencil.Proofs.Expr.OnePass
import Stencil.Proofs.Template.Location

/-!
# Proofs/Template/Unbroken — no template breaks the compiler

Three faults name no mistake of a template: a token that no code stands for, a wrapper method with no
value before it, and a delimiter that the open group does not take.  The emitter can come to each of
them, branch by branch, and never does (`arises_of_emitTag`).  The reader stops where the emitter
stops (`emitTag_eq`), so its faults are those of the text as well.  Here that goes from the
expression of a tag to the tag, and from the tag to the template.
-/

namespace Stencil

/-- **What fails, if it does, fails at a fault of the text.** -/
def Arising {α : Type} (x : Except Stuck α) : Prop := ∀ stuck, x = .error stuck → stuck.fault.Arises

namespace Arising

variable {α β : Type}

theorem ok (a : α) : Arising (.ok a) := nofun

theorem error {fault : Fault} {rest : Text} (h : fault.Arises) :
    Arising (.error ⟨fault, rest⟩ : Except Stuck α) := by
  rintro _ ⟨⟩
  exact h

/-- A sequence fails where one of its steps does. -/
theorem bind {x : Except Stuck α} {f : α → Except Stuck β} (hx : Arising x)
    (hf : ∀ a, Arising (f a)) : Arising (x >>= f) := by
  cases x with
  | error stuck => exact .error (hx stuck rfl)
  | ok a => exact hf a

end Arising

/-! ## Tags -/

section Tags

variable (r : Registry) (blocks : List Block) (line : Nat)

theorem readTag_arising (s : Scope) (t : Text) : Arising (readTag s t) :=
  fun _ => arises_of_readTag

theorem closeTag_arising (t : Text) : Arising (closeTag t) := by
  unfold closeTag
  split
  · exact .error (.of_code rfl)
  split
  · exact .ok _
  · exact .error (.of_code rfl)

theorem readElse_arising (top : Block) (t : Text) : Arising (readElse r blocks line top t) := by
  unfold readElse
  split
  · exact .error (.of_code rfl)
  · exact .error (.of_code rfl)
  · exact .ok _
  · split
    · exact .ok _
    · exact (readTag_arising _ t).bind fun _ => .ok _

theorem readCommand_arising (command : Command) (t : Text) :
    Arising (readCommand r blocks line command t) := by
  unfold readCommand
  split
  · exact (readTag_arising _ t).bind fun _ => .ok _
  · exact (readTag_arising _ t).bind fun _ => .ok _
  · exact (readTag_arising _ t).bind fun _ => .ok _
  · split
    · exact .ok _
    · exact (readElse_arising r _ line _ t).bind fun _ => .ok _
  · split <;> exact .ok _

/-- **A tag fails at a fault of the text.** -/
theorem readStatement_arising (command : Command) (t : Text) :
    Arising (readStatement r blocks line command t) := by
  refine (readCommand_arising r blocks line command t).bind fun result => ?_
  cases result with
  | none => exact .ok _
  | some found => exact (closeTag_arising found.2).bind fun _ => .ok _

end Tags

/-! ## Templates -/

theorem Stage.RefusesTag.arises {r : Registry} {q : Stage} {o : Opener} {tag back : Text}
    {e : Diagnostic} (h : q.RefusesTag r o tag back e) :
    e.code ≠ .broken ∧ e.code ≠ .strayDelimiter := by
  obtain ⟨command, stuck, -, hread, rfl⟩ := h.read
  exact readStatement_arising _ _ _ _ _ stuck hread

namespace Compiler

/-- **No template breaks the compiler**, for every registry, every setting and every template: no
report has the code of a broken compiler, nor that of a delimiter that its group does not take.

What is read of a tag is what the emitter writes in one pass, whose branches for those faults no run
comes to: at no level, in no context and before no text does it fail with one of their codes.  An
expression ends at a character that ends its context, and the group around it takes that character;
so whenever a run has a group to close or to go on with, the character ahead is one of those. -/
theorem compile_unbroken :
    (∀ (c : Compiler) (source : Text) (e : Diagnostic), c.compile source = .error e →
      e.code ≠ .broken ∧ e.code ≠ .strayDelimiter) ∧
    (∀ (s : Scope) (t : Text),
      emitTag s t = readTag s t >>= fun found => .ok (found.1.code s.registry, found.2)) ∧
    (∀ (s : Scope) (n : Nat) (ctx : Context) (t : Text),
      (∀ stuck, emitExpr s (nestedEmitter s n) ctx t = .error stuck →
        stuck.fault.code ≠ .broken ∧ stuck.fault.code ≠ .strayDelimiter) ∧
      (∀ out rest, emitExpr s (nestedEmitter s n) ctx t = .ok (out, rest) →
        ∃ c r, rest = c :: r ∧ ctx.ends c = true ∧
          (ctx.isPart = true → ∃ turn, ctx.turn c = .ok turn)) ∧
      (∀ d rest, Draft.Reached s (nestedEmitter s n) ctx t d rest →
        ∀ group, d.pending = some group → ∃ c r turn,
          Text.trimStart rest = c :: r ∧ group.ends c = true ∧ group.turn c = .ok turn)) := by
  refine ⟨fun c source e h => ?_, emitTag_eq, fun s n ctx t => ?_⟩
  · obtain ⟨tag, line, -, rfl⟩ | ⟨-, q, -, hlast⟩ := compile_error_cases h
    · exact ⟨nofun, nofun⟩
    obtain ⟨o, tag, back, hrefuses, -⟩ | ⟨b, -, rfl⟩ := hlast
    · exact hrefuses.arises
    · exact ⟨nofun, nofun⟩
  · have hlevels := nestedEmitter_reliable s n
    have hlevel := emitExpr_reliable (s := s) hlevels
    refine ⟨hlevel.arises ctx t, fun out rest h => ?_, fun d rest h => h.ready hlevels⟩
    obtain ⟨c, r, rfl, hends⟩ := hlevel.ends ctx t out rest h
    exact ⟨c, r, rfl, hends, fun hpart => Context.turn_of_ends hpart hends⟩

/-- A list whose first part is a ternary, with nothing behind its comma: the comma ends the last
branch of the ternary and the part of the list, and the list takes it. -/
theorem compile_unbroken_list :
    (∃ e, (Compiler.mk .standard false).compile "[= [1 ? 2 : 3, ] ]" = .error e ∧
      e.code = .missingExpression ∧ e.code ≠ .broken ∧ e.code ≠ .strayDelimiter) ∧
    (∃ d rest, Draft.Reached ⟨.standard, 0⟩ (nestedEmitter ⟨.standard, 0⟩ 2) .tag
        "[1 ? 2 : 3, 4]" d rest ∧
      d.pending = some (.item .square .first) ∧
      ∃ c r turn, Text.trimStart rest = c :: r ∧
        Context.ends (.item .square .first) c = true ∧
        Context.turn (.item .square .first) c = .ok turn) := by
  have herror : (Compiler.mk .standard false).compile "[= [1 ? 2 : 3, ] ]" =
      .error ⟨.missingExpression, "Unexpected `]`: missing expression before `]`", some 1,
        some "[= [1 ? 2 : 3, ]", none⟩ := by
    with_unfolding_all rfl
  have hround : ({} : Draft).round ⟨.standard, 0⟩ (nestedEmitter ⟨.standard, 0⟩ 2) .tag
      "[1 ? 2 : 3, 4]" = .ok (.more
        { prev := .token ⟨.opening .square, "["⟩ .opening, out := "[1 ? 2 : (3)", started := true
          span := some 0, pending := some (.item .square .first) } ", 4]") := by
    with_unfolding_all rfl
  obtain ⟨hcodes, -, hruns⟩ := compile_unbroken
  obtain ⟨-, -, hgroups⟩ := hruns ⟨.standard, 0⟩ 2 .tag "[1 ? 2 : 3, 4]"
  have hreached := Draft.Reached.start.round hround
  exact ⟨⟨_, herror, rfl, hcodes _ _ _ herror⟩, _, _, hreached, rfl, hgroups _ _ hreached _ rfl⟩

end Compiler

end Stencil
