import Stencil.Proofs.Block.Exact
import Stencil.Proofs.Host.Quiet
import Stencil.Proofs.Template.Segments

/-!
# Proofs/Template/Escape — every text can be produced

    text ──escape──▸ template ──compile──▸ text

A backslash behind the bracket of an opener makes it plain text, and is dropped.  `escape` puts one
there wherever a text holds an opener, so the template has the openers of the text, each with one
backslash more (`find?_escape`), and compiles to the text (`Compiler.compile_escape`).
-/

namespace Stencil

/-! ## Escaping -/

/-- Whether a text starts with backslashes, of which there may be none, and a command character. -/
def leadsToCommand : Text → Bool
  | [] => false
  | c :: t => if c = '\\' then leadsToCommand t else isCommandChar c

/-- **A text with a backslash behind the bracket of each opener.** -/
def escape : Text → Text
  | [] => []
  | c :: t => if c = '[' ∧ leadsToCommand t then c :: '\\' :: escape t else c :: escape t

/-- Escaping adds backslashes only. -/
theorem mem_escape {c : Char} {t : Text} (h : c ∈ escape t) : c ∈ t ∨ c = '\\' := by
  induction t with
  | nil => exact .inl h
  | cons d t ih =>
    rw [escape] at h
    split at h
    · rcases List.mem_cons.1 h with rfl | h
      · exact .inl List.mem_cons_self
      rcases List.mem_cons.1 h with rfl | h
      · exact .inr rfl
      · exact (ih h).imp_left (List.mem_cons_of_mem d)
    · rcases List.mem_cons.1 h with rfl | h
      · exact .inl List.mem_cons_self
      · exact (ih h).imp_left (List.mem_cons_of_mem d)

theorem escape_cons_of_ne {c : Char} (h : c ≠ '[') (t : Text) : escape (c :: t) = c :: escape t := by
  rw [escape, if_neg fun hc => h hc.1]

/-- Backslashes and what follows them are left as they are. -/
theorem escape_backslashes (n : Nat) (t : Text) :
    escape (List.replicate n '\\' ++ t) = List.replicate n '\\' ++ escape t := by
  induction n with
  | zero => rfl
  | succ n ih =>
    rw [List.replicate_succ, List.cons_append, escape_cons_of_ne (by decide), ih]
    rfl

/-- Escaping does not change whether a text leads to a command. -/
theorem leadsToCommand_escape (t : Text) : leadsToCommand (escape t) = leadsToCommand t := by
  induction t with
  | nil => rfl
  | cons c t ih =>
    rw [escape]
    split
    · next h =>
      rw [h.1]
      rfl
    · rw [leadsToCommand, leadsToCommand, ih]

/-- Escaping starts no host script. -/
theorem escapes_escape (t : Text) : HostTag.Escapes t (escape t) := by
  induction t with
  | nil => exact .nil
  | cons c t ih =>
    rw [escape]
    split
    · exact .keep c (.insert (by decide) ih)
    · exact .keep c ih

/-- **Escaping keeps a text quiet.** -/
theorem HostTag.Quiet.of_escapes {short : Bool} {t e : Text} (h : Quiet short t)
    (he : Escapes t e) : Quiet short e := by
  intro u hu hf
  obtain ⟨s, hs, hsu⟩ := he.of_suffix hu
  obtain ⟨word, hw, hp⟩ := fires_iff.1 hf
  rw [← List.append_nil u] at hp
  have hprefix := hsu.isPrefix (fun c => hw.breaks_eq) hp
  rw [List.append_nil] at hprefix
  exact h s hs (fires_iff.2 ⟨word, hw, hprefix⟩)

/-! ## The openers of an escaped text -/

namespace Opener

/-- An opener with one backslash more, and an escaped text behind it. -/
def escaped (o : Opener) : Opener := { o with backslashes := o.backslashes + 1, rest := escape o.rest }

/-- A bracket is an opener where a command follows it. -/
theorem bracket?_eq_none_iff {c : Char} {t : Text} :
    bracket? (c :: t) = none ↔ ¬(c = '[' ∧ leadsToCommand t = true) := by
  have hleads : leadsToCommand t = ((t.dropWhile (· == '\\')).head?.any isCommandChar) := by
    induction t with
    | nil => rfl
    | cons d t ih =>
      rw [leadsToCommand]
      split
      · next hd => rw [ih, hd, List.dropWhile_cons_of_pos (by rfl)]
      · next hd => rw [List.dropWhile_cons_of_neg (by simpa using hd)]; rfl
  by_cases hc : c = '['
  · subst hc
    rw [bracket?, hleads]
    cases t.dropWhile (· == '\\') with
    | nil => simp
    | cons d rest => simp
  · rw [bracket?]
    · simp [hc]
    · rintro t' ⟨⟩
      exact hc rfl

/-- An opener at the start of a text has one backslash more in the escaped text. -/
theorem bracket?_escape {t rest : Text} {n : Nat} {c : Char}
    (h : bracket? t = some (n, c, rest)) : bracket? (escape t) = some (n + 1, c, escape rest) := by
  have hc : isCommandChar c = true := isCommandChar_of_bracket? h
  have hne : c ≠ '[' := by
    rintro rfl
    cases hc
  obtain rfl := bracket?_append h
  have hleads : leadsToCommand (List.replicate n '\\' ++ c :: rest) = true := by
    rw [← Bool.not_eq_false]
    intro hno
    rw [bracket?_eq_none_iff.2 fun hb => Bool.false_ne_true (hno ▸ hb.2)] at h
    cases h
  rw [escape, if_pos ⟨rfl, hleads⟩, escape_backslashes, escape_cons_of_ne hne]
  exact bracket?_eq_some (n := n + 1) hc (escape rest)

/-- **The first bracket of an escaped text** is that of the text, with one backslash more. -/
theorem search?_escape (t : Text) :
    search? (escape t) =
      (search? t).map fun (before, n, c, rest) => (before, n + 1, c, escape rest) := by
  induction t with
  | nil => rfl
  | cons c t ih =>
    cases hb : bracket? (c :: t) with
    | some found =>
      obtain ⟨n, d, rest⟩ := found
      have hescape := bracket?_escape hb
      obtain ⟨e, r, her⟩ : ∃ e r, escape (c :: t) = e :: r := by
        cases h : escape (c :: t) with
        | nil => rw [h] at hescape; cases hescape
        | cons e r => exact ⟨e, r, rfl⟩
      rw [her] at hescape ⊢
      rw [search?, hescape, search?, hb]
      rfl
    | none =>
      have hno := bracket?_eq_none_iff.1 hb
      have hnone : bracket? (c :: escape t) = none := by
        rw [bracket?_eq_none_iff, leadsToCommand_escape]
        exact hno
      rw [escape, if_neg hno, search?, hnone, search?, hb, ih, Option.map_map, Option.map_map]
      rfl

/-- **The first opener of an escaped text.** -/
theorem find?_escape (t : Text) : find? (escape t) = (find? t).map escaped := by
  rw [find?, find?, search?_escape, Option.map_map, Option.map_map]
  rfl

/-- A text without openers is not changed. -/
theorem escape_eq_self {t : Text} (h : find? t = none) : escape t = t := by
  have hsearch := Option.map_eq_none_iff.1 h
  clear h
  induction t with
  | nil => rfl
  | cons c t ih =>
    rw [search?] at hsearch
    split at hsearch
    · cases hsearch
    · next hnone =>
      rw [escape, if_neg (bracket?_eq_none_iff.1 hnone), ih (Option.map_eq_none_iff.1 hsearch)]

end Opener

/-! ## Producing a text -/

/-- An opener with a backslash is read as it is. -/
theorem readSegment_escaped (r : Registry) (blocks : List Block) (line : Nat) (o : Opener) :
    readSegment r blocks line o.escaped = .ok ((.escaped o.escaped, blocks), escape o.rest) := by
  have hpos : 0 < o.escaped.backslashes := Nat.succ_pos o.backslashes
  rw [readSegment, if_pos hpos]
  rfl

/-- One backslash is dropped, and the opener of the text is there again. -/
theorem code_escaped (r : Registry) (o : Opener) :
    (Segment.escaped o.escaped).code r = o.text := rfl

/-- **An escaped text is scanned to plain text** and openers that stand for themselves. -/
theorem scan_escape (r : Registry) (line : Nat) (t : Text) :
    ∃ segments, scan r [] line (escape t) = .ok segments ∧
      segments.flatMap (Segment.code r) = t := by
  -- By the length of the text: behind its first opener it is shorter.
  induction hn : t.length using Nat.strongRecOn generalizing t line with
  | ind n ih =>
    cases hfind : Opener.find? t with
    | none =>
      have hnone : Opener.find? (escape t) = none := by rw [Opener.find?_escape, hfind]; rfl
      refine ⟨[.plain (escape t)], by rw [scan_of_find?_none hnone]; rfl, ?_⟩
      rw [Opener.escape_eq_self hfind]
      exact List.append_nil t
    | some o =>
      have hsome : Opener.find? (escape t) = some o.escaped := by
        rw [Opener.find?_escape, hfind]
        rfl
      obtain ⟨segments, hscan, hcode⟩ := ih _ (hn ▸ length_lt_of_find? hfind)
        (line + o.before.newlines + (Segment.escaped o.escaped).source.newlines) o.rest rfl
      refine ⟨.plain o.before :: .escaped o.escaped :: segments, ?_, ?_⟩
      · rw [scan_of_ok hsome (readSegment_escaped r [] _ o)]
        exact congrArg (Except.map _) hscan
      · rw [List.flatMap_cons, List.flatMap_cons, hcode, code_escaped]
        exact (List.append_assoc _ _ _).symm.trans (Opener.find?_append hfind)

namespace Compiler

/-- **Every normal text without host script can be produced**: its escaped form compiles to it, with
every registry. -/
theorem compile_escape (c : Compiler) {t : Text} (hmark : Source.mark ∉ t) (hreturn : '\r' ∉ t)
    (hhost : HostTag.reject c.shortTags t = .ok ()) : c.compile (escape t) = .ok t := by
  have hnormal : Source.normalize (escape t) = escape t := by
    refine Source.normalize_eq_self ?_ ?_
    · intro h
      exact (mem_escape h).elim hmark (by decide)
    · intro h
      exact (mem_escape h).elim hreturn (by decide)
  have hquiet := (HostTag.quiet_of_reject hhost).of_escapes (escapes_escape t)
  obtain ⟨parts, hscan, hcode⟩ := scan_escape c.registry 1 t
  simp only [compile, segments, hnormal, HostTag.reject_of_quiet hquiet, hscan, hcode]

/-- A text with a tag in an HTML comment, an escaped tag, a comment and an end of a block. -/
theorem compile_escape_tags :
    (⟨.standard, true⟩ : Compiler).compile "<!-- [\\=a] -->[\\\\?b][\\*c*][[\\/][x]".toList =
      .ok "<!-- [=a] -->[\\?b][*c*][[/][x]".toList :=
  compile_escape ⟨.standard, true⟩ (t := "<!-- [=a] -->[\\?b][*c*][[/][x]".toList) (by decide)
    (by decide) rfl

end Compiler

end Stencil
