import Stencil.Proofs.Template.Machine
import Stencil.Proofs.Template.Location
import Stencil.Proofs.Text.Lines

/-!
# Proofs/Template/Faithful — the machine compiles

    machine  ──step──▸ … ──step──▸  done
      │                               │
    source ─────────compile──────▸ result

For each reader of the compiler there is a run of the machine: from the task that starts it, with
the text ahead, to the task that follows, with the text left that the reader leaves.  Expressions come
first, by induction on the text ahead for all levels at once (`reaches_leave`), then tags, then the
scan.  So the machine comes to the result of the compiler (`reaches_done`).  As every cut has
succeeded on the way, and a machine has one step, it never misses an edge.
-/

namespace Stencil

namespace Cursor

theorem passHtmlClose?_behind (passed t : Text) :
    ∃ front, t = front ++ skipHtmlClose t ∧
      (behind passed t).passHtmlClose? = some (behind (passed ++ front) (skipHtmlClose t)) := by
  unfold passHtmlClose? skipHtmlClose
  rw [show (behind passed t).rest = t from rfl]
  dsimp only
  split
  · next hprefix =>
    obtain ⟨rest, hrest⟩ := List.isPrefixOf_iff_prefix.1 hprefix
    have hfront : t = t.takeWhile Text.isBlank ++ htmlClose ++ rest := by
      rw [List.append_assoc, hrest, Text.takeWhile_append_trimStart]
    refine ⟨t.takeWhile Text.isBlank ++ htmlClose, ?_, ?_⟩
    · rw [← hrest, Text.dropPrefix?_append_self]
      exact hfront
    · rw [pass?_behind hfront (by rw [Text.size_sub_trimStart, Text.size_append]), ← hrest,
        Text.dropPrefix?_append_self]
      rfl
  · next hprefix =>
    have hnone : Text.dropPrefix? htmlClose (Text.trimStart t) = none := by
      cases hdrop : Text.dropPrefix? htmlClose (Text.trimStart t) with
      | none => rfl
      | some rest =>
        exact absurd (List.isPrefixOf_iff_prefix.2 ⟨rest, Token.dropPrefix?_append hdrop⟩) hprefix
    rw [hnone]
    exact ⟨[], rfl, by rw [List.append_nil]; rfl⟩

theorem passComment?_behind (passed t : Text) :
    ∃ front, t = front ++ skipComment t ∧
      (behind passed t).passComment? = some (behind (passed ++ front) (skipComment t)) := by
  have hfind : Bytes.find? (Text.utf8 "*]") t.utf8 =
      (Text.breakOn? "*]" t).map fun found => found.1.size :=
    Text.find?_utf8 (c := '*') (by decide) "]" t
  unfold passComment? skipComment
  rw [show (behind passed t).rest = t from rfl, hfind]
  cases hbreak : Text.breakOn? "*]" t with
  | none =>
    refine ⟨t, (List.append_nil t).symm, ?_⟩
    exact congrArg (Option.map Prod.snd) (pass?_behind_size passed t)
  | some found =>
    obtain ⟨inner, rest⟩ := found
    have hinner : t = inner ++ "*]" ++ rest := breakOn?_append hbreak
    obtain ⟨close, hclose, hpass⟩ := passHtmlClose?_behind (passed ++ (inner ++ "*]")) rest
    refine ⟨inner ++ "*]" ++ close, by rw [List.append_assoc, ← hclose]; exact hinner, ?_⟩
    have hsize : Text.size inner + 2 = Text.size (inner ++ "*]") := by
      rw [Text.size_append]
      rfl
    dsimp only [Option.map_some]
    rw [pass?_behind hinner hsize, Option.bind_some, hpass, List.append_assoc passed]

end Cursor

namespace Machine

variable {c : Compiler} {blocks : List Block} {tag : OpenTag} {passed out t : Text}

/-- A step at the head of a run. -/
theorem Reaches.head {m m' m'' : Machine} (h : m.step c = some m') (k : Reaches c m' m'') :
    Reaches c m m'' := Relation.ReflTransGen.head h k

theorem Reaches.one {m m' : Machine} (h : m.step c = some m') : Reaches c m m' := .single h

/-! ## Expressions -/

/-- The levels below an expression with others around it. -/
def below (s : Scope) (outer : List Level) : Option Nested :=
  nestedEmitter s (maxNesting - outer.length)

theorem below_of_le {s : Scope} {outer : List Level} (h : maxNesting ≤ outer.length) :
    below s outer = none := by
  rw [below, Nat.sub_eq_zero_of_le h]
  rfl

theorem below_of_lt {s : Scope} {outer : List Level} (h : outer.length < maxNesting)
    (level : Level) :
    below s outer = some ⟨emitExpr s (below s (level :: outer)), Draft.run_suffix⟩ := by
  obtain ⟨n, hn⟩ := Nat.exists_eq_add_of_lt h
  have houter : maxNesting - outer.length = n + 1 := by omega
  have hlevel : maxNesting - (level :: outer).length = n := by
    rw [List.length_cons]
    omega
  rw [below, below, houter, hlevel]
  rfl

/-- The step of an expression passes blanks and what its draft passes. -/
theorem step_express (c : Compiler) (blocks : List Block) (tag : OpenTag) (out passed t : Text) (ctx : Context) (d : Draft) (outer : List Level)
    (nesting : Nat) {front back : Text} (hsplit : Text.trimStart t = front ++ back)
    (hsize : (d.move (scope c blocks) ctx (Text.trimStart t)).1 = front.size) :
    step c ⟨.behind passed t, blocks, nesting, out, .express tag ⟨ctx, d⟩ outer⟩ =
      some (follow ⟨.behind (passed ++ (t.takeWhile Text.isBlank ++ front)) back, blocks, nesting, out,
        .express tag ⟨ctx, d⟩ outer⟩ tag ctx outer
        (d.move (scope c blocks) ctx (Text.trimStart t)).2) := by
  unfold step express
  dsimp only
  rw [Cursor.passBlanks?_behind, Option.bind_some,
    show (Cursor.behind (passed ++ t.takeWhile Text.isBlank) (Text.trimStart t)).rest =
      Text.trimStart t from rfl, Cursor.pass?_behind hsplit hsize, Option.map_some,
    List.append_assoc]

/-- **An expression is left as it is emitted**, whatever stands around it: by induction on the text
ahead, for all levels at once. -/
theorem reaches_leave (c : Compiler) (blocks : List Block) (tag : OpenTag) (out t passed : Text)
    (ctx : Context) (d : Draft) (outer : List Level) (houter : outer.length ≤ maxNesting) :
    ∃ front rest result, t = front ++ rest ∧
      d.run (scope c blocks) (below (scope c blocks) outer) ctx t = Draft.before rest result ∧
      Reaches c ⟨.behind passed t, blocks, outer.length, out, .express tag ⟨ctx, d⟩ outer⟩
        ⟨.behind (passed ++ front) rest, blocks, outer.length, out, .leave tag ctx result outer⟩ := by
  obtain ⟨front, back, hsplit, hsize⟩ := Text.isEdge_iff.1
    (Draft.move_isEdge (scope c blocks) ctx d (Text.trimStart t))
  have ht : t = t.takeWhile Text.isBlank ++ front ++ back := by
    rw [List.append_assoc, ← hsplit, Text.takeWhile_append_trimStart]
  have hstep := step_express c blocks tag out passed t ctx d outer outer.length hsplit hsize.symm
  have hround := Draft.round_eq_move (scope c blocks) (below (scope c blocks) outer) ctx d t
  rw [← hsize, hsplit, Text.splitBytes_size, ← hsplit] at hround
  have hshorter : (d.move (scope c blocks) ctx (Text.trimStart t)).2.goesOn = true →
      back.length < t.length := by
    intro hgoes
    have hpos := hsize ▸ Draft.move_pos hgoes
    have hne : 0 < front.length := List.length_pos_iff.2 fun h => by
      rw [h] at hpos
      exact Nat.lt_irrefl 0 hpos
    have hlength := congrArg List.length ht
    simp only [List.length_append] at hlength
    omega
  generalize hmove : (d.move (scope c blocks) ctx (Text.trimStart t)).2 = move at *
  cases move with
  | fail fault =>
    refine ⟨_, back, .error fault, ht, ?_, .one hstep⟩
    rw [Draft.run_eq, hround]
    rfl
  | finish code =>
    refine ⟨_, back, .ok code, ht, ?_, .one hstep⟩
    rw [Draft.run_eq, hround]
    rfl
  | stay d' =>
    have hlt := hshorter rfl
    obtain ⟨front', rest, result, hrest, hrun, hreaches⟩ := reaches_leave c blocks tag out back
      (passed ++ (t.takeWhile Text.isBlank ++ front)) ctx d' outer houter
    refine ⟨t.takeWhile Text.isBlank ++ front ++ front', rest, result, ?_, ?_, ?_⟩
    · rw [List.append_assoc, ← hrest]
      exact ht
    · rw [Draft.run_eq, hround]
      exact hrun
    · rw [← List.append_assoc passed]
      exact .head hstep hreaches
  | enter d' child =>
    by_cases hfull : maxNesting ≤ outer.length
    · -- The level would be one too many, and the emitter has none below.
      refine ⟨_, back, .error (.tooDeep maxNesting), ht, ?_, .one ?_⟩
      · rw [Draft.run_eq, hround, below_of_le hfull]
        rfl
      · rw [hstep, follow, if_pos hfull]
    have hlt := hshorter rfl
    have hlevel : outer.length < maxNesting := Nat.not_le.1 hfull
    rw [follow, if_neg hfull] at hstep
    obtain ⟨inner, rest, result, hrest, hrun, hreaches⟩ := reaches_leave c blocks tag out back
      (passed ++ (t.takeWhile Text.isBlank ++ front)) child {} (⟨ctx, d'⟩ :: outer) hlevel
    have hemit : (Draft.Move.enter d' child).round (below (scope c blocks) outer) back =
        Draft.run (scope c blocks) (below (scope c blocks) (⟨ctx, d'⟩ :: outer)) child {} back >>=
          fun found => .ok (.more (d'.receive child found.1) found.2) := by
      rw [below_of_lt hlevel ⟨ctx, d'⟩]
      rfl
    rw [hrun] at hemit
    rw [hemit] at hround
    have hinner : t = t.takeWhile Text.isBlank ++ front ++ inner ++ rest := by
      rw [List.append_assoc _ inner, ← hrest]
      exact ht
    cases result with
    | error fault =>
      refine ⟨_, rest, .error fault, hinner, ?_, ?_⟩
      · rw [Draft.run_eq, hround]
        rfl
      · rw [← List.append_assoc passed]
        exact .head hstep (.tail hreaches rfl)
    | ok code =>
      have hrestlt : rest.length < t.length := by
        have hlength := congrArg List.length hrest
        rw [List.length_append] at hlength
        omega
      obtain ⟨front', rest', result, hrest', hrun', hreaches'⟩ := reaches_leave c blocks tag out rest
        (passed ++ (t.takeWhile Text.isBlank ++ front) ++ inner) ctx (d'.receive child code) outer
        houter
      refine ⟨t.takeWhile Text.isBlank ++ front ++ inner ++ front', rest', result, ?_, ?_, ?_⟩
      · rw [List.append_assoc _ front', ← hrest']
        exact hinner
      · rw [Draft.run_eq, hround]
        exact hrun'
      · rw [← List.append_assoc passed, ← List.append_assoc passed]
        exact .head hstep (hreaches.trans (.head rfl hreaches'))
termination_by t.length

/-! ## Tags -/

/-- A machine comes to its result. -/
def Yields (c : Compiler) (m : Machine) (result : Except Diagnostic Text) : Prop :=
  ∃ m', Reaches c m m' ∧ m'.task = .done result

theorem Reaches.yields {m m' : Machine} {result : Except Diagnostic Text} (h : Reaches c m m')
    (k : Yields c m' result) : Yields c m result := by
  obtain ⟨m'', hreaches, hdone⟩ := k
  exact ⟨m'', h.trans hreaches, hdone⟩

variable {q opener : Text} {command : Command} {nesting : Nat}

/-- A fault of a tag is reported where the reader has stopped. -/
theorem yields_report {stuck : Stuck} {front : Text} (ht : t = front ++ stuck.rest) (line : Nat) :
    Yields c ⟨.behind (q ++ (opener ++ front)) stuck.rest, blocks, nesting, out,
        .report ⟨q.size, line, command⟩ stuck.fault⟩
      (.error (locate (opener ++ t) (1 + q.newlines) stuck)) := by
  obtain ⟨back, hback⟩ := excerptEnd_prefix stuck.rest
  have htext : (Cursor.behind (q ++ (opener ++ front)) stuck.rest).text =
      q ++ ((opener ++ front ++ excerptEnd stuck.rest) ++ back) := by
    simp only [Cursor.behind, List.append_assoc, hback]
  have hoffset : (Cursor.behind (q ++ (opener ++ front)) stuck.rest).offset +
      excerptSize stuck.rest = q.size + Text.size (opener ++ front ++ excerptEnd stuck.rest) := by
    simp only [Cursor.behind, excerptSize_eq, Text.size_append, Nat.add_assoc]
  have hupTo : Text.upTo (opener ++ t) stuck.rest = opener ++ front := by
    rw [ht, ← List.append_assoc, Text.upTo_append]
  refine ⟨⟨.behind (q ++ (opener ++ front)) stuck.rest, blocks, nesting, out,
    .done (.error (locate (opener ++ t) (1 + q.newlines) stuck))⟩, .one ?_, rfl⟩
  unfold step report
  dsimp only
  rw [show (Cursor.behind (q ++ (opener ++ front)) stuck.rest).rest = stuck.rest from rfl, hoffset,
    Cursor.slice?_eq htext, locate, hupTo, Cursor.behind, Text.newlines_append q, Nat.add_assoc]
  rfl

section Close

variable {inner rest : Text} {statement : Statement} {line : Nat}

theorem append_inner (q opener inner front : Text) :
    q ++ (opener ++ inner) ++ front = q ++ (opener ++ (inner ++ front)) := by
  simp only [List.append_assoc]

/-- A tag that is not closed is a fault of it, behind the text `inner` of its command. -/
theorem reaches_of_closeTag_error {stuck : Stuck} (h : closeTag t = .error stuck) :
    ∃ front, t = front ++ stuck.rest ∧
      Reaches c
        ⟨.behind (q ++ (opener ++ inner)) t, blocks, nesting, out,
          .close ⟨q.size, line, command⟩ statement⟩
        ⟨.behind (q ++ (opener ++ (inner ++ front))) stuck.rest, blocks, nesting, out,
          .report ⟨q.size, line, command⟩ stuck.fault⟩ := by
  refine ⟨t.takeWhile Text.isBlank, ?_, .one ?_⟩
  · have hblanks := Text.takeWhile_append_trimStart t
    unfold closeTag at h
    split at h
    · next htrim =>
      cases h
      rw [htrim] at hblanks
      exact hblanks.symm
    · next htrim =>
      split at h <;> cases h
      rw [htrim] at hblanks
      exact hblanks.symm
  · unfold step close
    dsimp only
    rw [Cursor.passBlanks?_behind, append_inner]
    unfold closeTag at h
    split at h
    · next htrim =>
      cases h
      rw [htrim]
      rfl
    · next d r htrim =>
      split at h
      · cases h
      · next hbracket =>
        cases h
        rw [htrim, Option.bind_some]
        exact if_neg hbracket

/-- **A tag is closed as it is read**, and its statement is written. -/
theorem reaches_of_closeTag (h : closeTag t = .ok rest) :
    ∃ front, t = front ++ rest ∧
      Reaches c
        ⟨.behind (q ++ (opener ++ inner)) t, blocks, nesting, out,
          .close ⟨q.size, line, command⟩ statement⟩
        ⟨.behind (q ++ (opener ++ (inner ++ front))) rest, blocks, nesting,
          out ++ statement.code c.registry ⟨line, opener ++ (inner ++ front)⟩, .scan⟩ := by
  have hblanks := Text.takeWhile_append_trimStart t
  unfold closeTag at h
  split at h
  · cases h
  next d r htrim =>
  split at h
  · next hbracket =>
    cases h
    have hbracketSize : (1 : Nat) = Text.size [d] := by
      rw [hbracket]
      rfl
    have hbracketPass : (Cursor.behind (q ++ (opener ++ (inner ++ t.takeWhile Text.isBlank)))
        (d :: r)).pass? 1 = some ([d], _) := Cursor.pass?_behind rfl hbracketSize _
    obtain ⟨html, hhtml, hpass⟩ := Cursor.passHtmlClose?_behind
      (q ++ (opener ++ (inner ++ t.takeWhile Text.isBlank)) ++ [d]) r
    have hbody : q ++ (opener ++ (inner ++ t.takeWhile Text.isBlank)) ++ [d] ++ html =
        q ++ (opener ++ (inner ++ (t.takeWhile Text.isBlank ++ d :: html))) := by
      simp only [List.append_assoc, List.cons_append, List.nil_append]
    have hcut : (Cursor.behind (q ++ (opener ++ (inner ++ (t.takeWhile Text.isBlank ++ d :: html))))
        (skipHtmlClose r)).slice? q.size (q.size + _) = some _ :=
      Cursor.slice?_eq (List.append_assoc _ _ _)
    rw [hbody] at hpass
    refine ⟨t.takeWhile Text.isBlank ++ d :: html, ?_, .one ?_⟩
    · rw [List.append_assoc, List.cons_append, ← hhtml, ← htrim, hblanks]
    · unfold step close
      dsimp only
      rw [Cursor.passBlanks?_behind, append_inner, htrim, Option.bind_some,
        show (Cursor.behind (q ++ (opener ++ (inner ++ t.takeWhile Text.isBlank))) (d :: r)).rest =
          d :: r from rfl]
      dsimp only
      rw [if_pos hbracket, hbracketPass, Option.bind_some, hpass,
        Option.bind_some, Cursor.behind, Text.size_append q]
      exact congrArg (Option.map _) hcut
  · cases h

end Close

section Statement

variable {code : Text}

/-- **The expression of a tag is left as it is read.** -/
theorem reaches_of_readTag (c : Compiler) (blocks : List Block) (tag : OpenTag) (out passed t : Text) :
    ∃ front rest result, t = front ++ rest ∧
      (readTag (scope c blocks) t >>= fun found =>
        .ok (found.1.code c.registry, found.2)) = Draft.before rest result ∧
      Reaches c ⟨.behind passed t, blocks, 0, out, .express tag { ctx := .tag } []⟩
        ⟨.behind (passed ++ front) rest, blocks, 0, out, .leave tag .tag result []⟩ := by
  obtain ⟨front, rest, result, hsplit, hrun, hreaches⟩ :=
    reaches_leave c blocks tag out t passed .tag {} [] (Nat.zero_le _)
  exact ⟨front, rest, result, hsplit, (emitTag_eq _ t).symm.trans hrun, hreaches⟩

/-- The machine behind an opener at which a tag starts. -/
def opened (q opener t : Text) (blocks : List Block) (out : Text) (command : Command) : Machine :=
  begin ⟨.behind (q ++ opener) t, blocks, 0, out, .scan⟩ ⟨q.size, 1 + q.newlines, command⟩ opener

/-- A command is a fault, no tag, or comes to the close of its tag. -/
theorem reaches_of_readCommand (c : Compiler) (q opener t : Text) (blocks : List Block) (out : Text)
    (command : Command) :
    match readCommand c.registry blocks (1 + q.newlines) command t with
    | .error stuck => ∃ front, t = front ++ stuck.rest ∧
        Reaches c (opened q opener t blocks out command)
          ⟨.behind (q ++ (opener ++ front)) stuck.rest, blocks, 0, out,
            .report ⟨q.size, 1 + q.newlines, command⟩ stuck.fault⟩
    | .ok none =>
        opened q opener t blocks out command =
          ⟨.behind (q ++ opener) t, blocks, 0, out ++ opener, .scan⟩
    | .ok (some ((statement, after), rest)) => ∃ front statement', t = front ++ rest ∧
        (∀ mark, statement'.code c.registry mark = statement.code c.registry mark) ∧
        Reaches c (opened q opener t blocks out command)
          ⟨.behind (q ++ (opener ++ front)) rest, after, 0, out,
            .close ⟨q.size, 1 + q.newlines, command⟩ statement'⟩ := by
  rw [Command.readCommand_eq, opened, begin,
    show (Cursor.behind (q ++ opener) t).rest = t from rfl]
  dsimp only
  have hopener : q ++ opener = q ++ (opener ++ []) := by rw [List.append_nil]
  cases command.plan blocks (1 + q.newlines) t with
  | settle statement after =>
    exact ⟨[], statement, rfl, fun _ => rfl, hopener ▸ .refl⟩
  | stray => rfl
  | fail fault => exact ⟨[], rfl, hopener ▸ .refl⟩
  | express =>
    obtain ⟨front, rest, result, hsplit, hread, hreaches⟩ := reaches_of_readTag c blocks
      ⟨q.size, 1 + q.newlines, command⟩ out (q ++ opener) t
    rw [List.append_assoc] at hreaches
    dsimp only
    cases htag : readTag ⟨c.registry, Block.loops blocks⟩ t with
    | error stuck =>
      rw [scope, htag] at hread
      cases result with
      | ok code => cases hread
      | error fault =>
        cases hread
        exact ⟨front, hsplit, hreaches.tail rfl⟩
    | ok found =>
      obtain ⟨e, rest'⟩ := found
      rw [scope, htag] at hread
      cases result with
      | error fault => cases hread
      | ok code =>
        cases hread
        have hsame := Command.code_complete c.registry blocks (1 + q.newlines) e command
        simp only [bind, Except.bind]
        generalize command.complete blocks (1 + q.newlines) e = completed at hsame
        obtain ⟨statement, after⟩ := completed
        refine ⟨front, _, hsplit, fun mark => (hsame mark).1, ?_⟩
        rw [show after = _ from (hsame ⟨0, []⟩).2.symm]
        exact hreaches.tail rfl

/-- **A tag is compiled**, or its fault is reported. -/
theorem reaches_of_readStatement (c : Compiler) (q opener t : Text) (blocks : List Block)
    (out : Text) (command : Command) :
    match readStatement c.registry blocks (1 + q.newlines) command t with
    | .error stuck =>
        Yields c (opened q opener t blocks out command)
          (.error (locate (opener ++ t) (1 + q.newlines) stuck))
    | .ok none =>
        opened q opener t blocks out command =
          ⟨.behind (q ++ opener) t, blocks, 0, out ++ opener, .scan⟩
    | .ok (some ((statement, after), rest)) => ∃ front, t = front ++ rest ∧
        Reaches c (opened q opener t blocks out command)
          ⟨.behind (q ++ (opener ++ front)) rest, after, 0,
            out ++ statement.code c.registry ⟨1 + q.newlines, opener ++ front⟩, .scan⟩ := by
  have hcommand := reaches_of_readCommand c q opener t blocks out command
  unfold readStatement
  generalize readCommand c.registry blocks (1 + q.newlines) command t = x at hcommand
  rcases x with stuck | _ | ⟨⟨statement, after⟩, rest⟩
  · obtain ⟨front, hsplit, hreaches⟩ := hcommand
    exact hreaches.yields (yields_report hsplit _)
  · exact hcommand
  · obtain ⟨inner, statement', hinner, hsame, hreaches⟩ := hcommand
    simp only [bind, Except.bind]
    cases hclose : closeTag rest with
    | error stuck =>
      obtain ⟨front, hfront, hclosing⟩ := reaches_of_closeTag_error hclose
      have hsplit : t = inner ++ front ++ stuck.rest := by rw [List.append_assoc, ← hfront, hinner]
      exact hreaches.yields (Reaches.yields hclosing (yields_report hsplit _))
    | ok rest' =>
      obtain ⟨front, hfront, hclosing⟩ := reaches_of_closeTag hclose
      refine ⟨inner ++ front, by rw [List.append_assoc, ← hfront, hinner], ?_⟩
      rw [← hsame]
      exact hreaches.trans hclosing

end Statement

/-! ## The scan -/

section Scan

variable {o : Opener}

/-- An opener with a backslash is cut on both sides of the first one. -/
theorem cuts_of_backslash {n : Nat} (h : o.backslashes = n + 1) :
    o.text.front? (o.html.size + 1) = some (o.html ++ "[") ∧
      o.text.back? (o.html.size + 2) = some (List.replicate n '\\' ++ [o.command]) := by
  have hfront : o.text = (o.html ++ "[") ++ ('\\' :: (List.replicate n '\\' ++ [o.command])) := by
    rw [Opener.text, Opener.textWith, h, List.replicate_succ, List.append_assoc]
    rfl
  have hback : o.text = (o.html ++ "[\\") ++ (List.replicate n '\\' ++ [o.command]) := by
    rw [hfront, List.append_assoc, List.append_assoc]
    rfl
  constructor
  · rw [hfront, show o.html.size + 1 = Text.size (o.html ++ "[") by rw [Text.size_append]; rfl,
      Text.front?_size]
  · rw [hback, show o.html.size + 2 = Text.size (o.html ++ "[\\") by rw [Text.size_append]; rfl,
      Text.back?_size]

/-- The step of a scan before an opener. -/
theorem step_scan (c : Compiler) (passed t : Text) (blocks : List Block) (out : Text)
    (h : Opener.find? t = some o) :
    step c ⟨.behind passed t, blocks, 0, out, .scan⟩ =
      if 0 < o.backslashes then
        some ⟨.behind (passed ++ o.before ++ o.text) o.rest, blocks, 0,
          out ++ o.before ++ o.textWith (o.backslashes - 1), .scan⟩
      else
        match Command.ofChar? o.command with
        | none =>
          (Cursor.behind (passed ++ o.before ++ o.text) o.rest).passComment?.map fun cursor =>
            ⟨cursor, blocks, 0, out ++ o.before, .scan⟩
        | some command =>
          some (opened (passed ++ o.before) o.text o.rest blocks (out ++ o.before) command) := by
  have hcommand := Opener.isCommandChar_of_find? h
  have happend := Opener.find?_append h
  rw [List.append_assoc] at happend
  have hliteral : (Cursor.behind passed t).pass? o.before.size =
      some (o.before, .behind (passed ++ o.before) (o.text ++ o.rest)) :=
    Cursor.pass?_behind happend.symm rfl passed
  have hopener : (Cursor.behind (passed ++ o.before) (o.text ++ o.rest)).pass? o.inBytes.size =
      some (o.text, .behind (passed ++ o.before ++ o.text) o.rest) :=
    Cursor.pass?_behind rfl (Opener.InBytes.size_inBytes o hcommand) _
  have hchar : Char.ofNat o.inBytes.command.toNat = o.command := by
    rw [Opener.inBytes, Text.toNat_byte (Opener.InBytes.lt_of_isCommandChar hcommand),
      Char.ofNat_toNat]
  unfold step scan
  dsimp only
  rw [show (Cursor.behind passed t).rest = t from rfl, Opener.InBytes.find?_eq, h, Option.map_some,
    Option.bind_some]
  dsimp only
  unfold enter
  dsimp only
  rw [show o.inBytes.literal = o.before.size from rfl, hliteral, Option.bind_some]
  dsimp only
  rw [hopener, Option.bind_some]
  dsimp only
  rw [hchar, show o.inBytes.backslashes = o.backslashes from rfl]
  split
  · next hpos =>
    obtain ⟨n, hn⟩ := Nat.exists_eq_add_of_lt hpos
    rw [Nat.zero_add] at hn
    obtain ⟨hfront, hback⟩ := cuts_of_backslash hn
    rw [show o.inBytes.html = o.html.size from rfl, hfront, Option.bind_some, hback, Option.map_some,
      hn, Nat.add_sub_cancel, Opener.textWith, List.append_assoc o.html]
    rfl
  · cases Command.ofChar? o.command <;> rfl

/-- **A segment is compiled**, or the fault of its tag is reported. -/
theorem reaches_of_readSegment (c : Compiler) (passed t : Text) (blocks : List Block) (out : Text)
    (h : Opener.find? t = some o) :
    match readSegment c.registry blocks (1 + passed.newlines + o.before.newlines) o with
    | .error d => Yields c ⟨.behind passed t, blocks, 0, out, .scan⟩ (.error d)
    | .ok ((segment, after), rest) =>
        Reaches c ⟨.behind passed t, blocks, 0, out, .scan⟩
          ⟨.behind (passed ++ o.before ++ segment.source) rest, after, 0,
            out ++ (o.before ++ segment.code c.registry), .scan⟩ := by
  have hstep := step_scan c passed t blocks out h
  have hline : 1 + passed.newlines + o.before.newlines = 1 + (passed ++ o.before).newlines := by
    rw [Text.newlines_append, Nat.add_assoc]
  rw [hline]
  unfold readSegment
  dsimp only
  split at hstep
  · next hpos =>
    rw [if_pos hpos]
    rw [List.append_assoc out] at hstep
    exact .one hstep
  next hpos =>
  rw [if_neg hpos]
  cases hcommand : Command.ofChar? o.command with
  | none =>
    rw [hcommand] at hstep
    obtain ⟨front, hfront, hpass⟩ := Cursor.passComment?_behind (passed ++ o.before ++ o.text) o.rest
    dsimp only
    generalize skipComment o.rest = rest at hfront hpass
    rw [hfront, ← List.append_assoc, Text.upTo_append]
    rw [hpass, List.append_assoc _ o.text] at hstep
    exact .one (hstep.trans (by rw [Segment.code, List.append_nil]; rfl))
  | some command =>
    rw [hcommand] at hstep
    have htag := reaches_of_readStatement c (passed ++ o.before) o.text o.rest blocks
      (out ++ o.before) command
    dsimp only
    generalize readStatement c.registry blocks _ command o.rest = x at htag
    rcases x with stuck | _ | ⟨⟨statement, after⟩, rest⟩
    · exact (Reaches.one hstep).yields htag
    · dsimp only at htag hstep
      rw [htag, List.append_assoc out] at hstep
      exact .one hstep
    · obtain ⟨front, hfront, hreaches⟩ := htag
      rw [List.append_assoc out] at hreaches
      dsimp only
      rw [hfront, ← List.append_assoc, Text.upTo_append]
      exact .head hstep hreaches

/-- **The scan of a text is run**, by induction on the text. -/
theorem yields_scan (c : Compiler) (t passed : Text) (blocks : List Block) (out : Text) :
    Yields c ⟨.behind passed t, blocks, 0, out, .scan⟩
      ((Stencil.scan c.registry blocks (1 + passed.newlines) t).map fun segments =>
        out ++ segments.flatMap (Segment.code c.registry)) := by
  cases hfind : Opener.find? t with
  | none =>
    rw [scan_of_find?_none hfind]
    refine ⟨⟨.behind (passed ++ t) [], blocks, 0, out ++ t, _⟩, .one ?_, rfl⟩
    unfold step scan
    dsimp only
    rw [show (Cursor.behind passed t).rest = t from rfl, Opener.InBytes.find?_eq, hfind,
      Option.map_none, Option.bind_some]
    unfold finish
    dsimp only
    rw [show (Cursor.behind passed t).rest = t from rfl, Cursor.pass?_behind_size, Option.map_some]
    dsimp only
    cases needClosed blocks with
    | error d => rfl
    | ok _ => simp [Except.map, Segment.code]
  | some o =>
    have hsegment := reaches_of_readSegment c passed t blocks out hfind
    cases hread : readSegment c.registry blocks (1 + passed.newlines + o.before.newlines) o with
    | error d =>
      rw [hread] at hsegment
      rw [scan_of_error hfind hread]
      exact hsegment
    | ok found =>
      obtain ⟨⟨segment, after⟩, rest⟩ := found
      rw [hread] at hsegment
      have hshorter : rest.length < t.length :=
        Nat.lt_of_le_of_lt (readSegment_suffix hread).length_le (length_lt_of_find? hfind)
      rw [scan_of_ok hfind hread]
      have hrest := yields_scan c rest (passed ++ o.before ++ segment.source) after
        (out ++ (o.before ++ segment.code c.registry))
      have hline : 1 + Text.newlines (passed ++ o.before ++ segment.source) =
          1 + passed.newlines + o.before.newlines + segment.source.newlines := by
        simp only [Text.newlines_append, Nat.add_assoc]
      rw [hline] at hrest
      refine Reaches.yields hsegment ?_
      generalize Stencil.scan c.registry after _ rest = x at hrest
      cases x with
      | error d => exact hrest
      | ok segments => simpa [Except.map, Segment.code] using hrest
termination_by t.length

end Scan

/-- **The machine comes to what the template compiles to.** -/
theorem yields_compile (c : Compiler) (source : Text) :
    Yields c (start source) (c.compile source) := by
  have hguard : step c (start source) =
      some ⟨.behind [] (Source.normalize source), [], 0, [],
        (HostTag.find? c.shortTags 1 (Source.normalize source)).elim .scan fun found =>
          .done (.error ((Fault.hostTag found.1).diagnostic.withLine found.2))⟩ := by
    unfold step start guard
    dsimp only
    rw [show (Cursor.start (Source.normalize source)).rest = Source.normalize source from rfl,
      HostTag.seek?_eq, Option.map_some]
    cases HostTag.find? c.shortTags 1 (Source.normalize source) <;> rfl
  unfold Compiler.compile Compiler.segments HostTag.reject
  dsimp only
  cases hfind : HostTag.find? c.shortTags 1 (Source.normalize source) with
  | some found =>
    rw [hfind] at hguard
    exact ⟨_, .one hguard, rfl⟩
  | none =>
    rw [hfind] at hguard
    have hscan := yields_scan c (Source.normalize source) [] [] []
    dsimp only
    rw [show 1 + Text.newlines [] = 1 from rfl] at hscan
    refine (Reaches.one hguard).yields ?_
    cases hsegments : Stencil.scan c.registry [] 1 (Source.normalize source) with
    | error d =>
      rw [hsegments] at hscan
      exact hscan
    | ok segments =>
      rw [hsegments] at hscan
      exact hscan

end Machine

end Stencil
