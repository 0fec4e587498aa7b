import Stencil.Cursor
import Stencil.Proofs.Text.Lines
import Stencil.Proofs.Token.Pattern

/-!
# Proofs/Token/Longest — a token is the longest match

    text ──read?──▸ token   =   the longest text ahead that matches

A text that matches a pattern is reached (`Kind.Matches.reaches`): wherever it is ahead the lexer
takes it, or more.  As what it takes matches, it takes the longest match (`isLongest_of_read?`), and
no text matches two kinds (`Kind.Matches.unique`).  A cursor that is moved token by token therefore
splits its text into longest matches (`Cursor.nextToken_isLongest`).
-/

namespace Stencil

namespace Token

open Pattern

/-! ## What matches is reached -/

/-- **A text is reached**: wherever it is ahead the lexer takes it or more, and it is given no kind
but this one. -/
def Kind.Reaches (kind : Kind) (p : Text) : Prop :=
  ∀ u, ∃ token rest, read? (p ++ u) = some (token, rest) ∧ p <+: token.text ∧
    (token.text = p → token.kind = kind)

/-- A run reaches as far as its characters go. -/
theorem reaches_run {kind : Kind} {c : Char} {later : Char → Bool}
    (hread : ∀ t, read? (c :: t) = some (⟨kind, c :: t.takeWhile later⟩, t.dropWhile later))
    {r : Text} (hr : ∀ d ∈ r, later d = true) : kind.Reaches (c :: r) := by
  intro u
  refine ⟨_, _, hread (r ++ u), ?_, fun _ => rfl⟩
  rw [List.takeWhile_append_of_pos hr]
  exact ⟨u.takeWhile later, rfl⟩

/-- Digits end at a character that is none. -/
theorem takeWhile_digits {ds t : Text} (hds : ∀ d ∈ ds, Text.isDigit d = true)
    (ht : ∀ c ∈ t.head?, Text.isDigit c = false) :
    (ds ++ t).takeWhile Text.isDigit = ds ∧ (ds ++ t).dropWhile Text.isDigit = t := by
  rw [List.takeWhile_append_of_pos hds, List.dropWhile_append_of_pos hds]
  cases t with
  | nil => simp
  | cons c t => simp [ht c rfl]

theorem mem_exponentPattern {t : Text} (h : t ∈ exponentPattern.language) :
    ∃ e s d ds, (e == 'e' || e == 'E') = true ∧ (s == '+' || s == '-') = true ∧
      Text.isDigit d = true ∧ (∀ d ∈ ds, Text.isDigit d = true) ∧ t = e :: s :: d :: ds := by
  obtain ⟨e, _, he, hsign, rfl⟩ := mem_seq_one.1 h
  obtain ⟨s, _, hs, hdigits, rfl⟩ := mem_seq_one.1 hsign
  obtain ⟨d, ds, hd, hds, rfl⟩ := mem_run.1 hdigits
  exact ⟨e, s, d, ds, he, hs, hd, hds, rfl⟩

/-- An exponent starts with a letter. -/
theorem head_exponent {e u : Text} (he : e ∈ exponentPattern.language) :
    ∀ c ∈ (e ++ u).head?, Text.isDigit c = false ∧ c ≠ '.' := by
  obtain ⟨m, s, d, ds, hm, -, -, -, rfl⟩ := mem_exponentPattern he
  rintro c ⟨⟩
  simp only [Bool.or_eq_true, beq_iff_eq] at hm
  rcases hm with rfl | rfl <;> decide

/-- An exponent ahead is read. -/
theorem exponent_reaches {e : Text} (he : e ∈ exponentPattern.language) (u : Text) :
    e <+: (exponent (e ++ u)).1 := by
  obtain ⟨m, s, d, ds, hm, hs, hd, hds, rfl⟩ := mem_exponentPattern he
  simp only [List.cons_append, exponent, hm, hs, hd, Bool.and_self, if_true]
  rw [List.takeWhile_append_of_pos hds]
  exact ⟨u.takeWhile Text.isDigit, rfl⟩

/-- A fraction ahead is read. -/
theorem fraction_reaches {ds : Text} (hds : ∀ d ∈ ds, Text.isDigit d = true) (u : Text) :
    '.' :: ds <+: (fraction ('.' :: (ds ++ u))).1 := by
  rw [fraction, List.takeWhile_append_of_pos hds]
  exact ⟨u.takeWhile Text.isDigit, rfl⟩

/-- A fraction is read up to what is no part of it. -/
theorem fraction_append_of_mem {f t : Text} (hf : f ∈ fractionPattern.optional.language)
    (ht : ∀ c ∈ t.head?, Text.isDigit c = false ∧ c ≠ '.') : fraction (f ++ t) = (f, t) := by
  rcases mem_optional.1 hf with hf | rfl
  · obtain ⟨c, ds, hc, hds, rfl⟩ := mem_run.1 hf
    obtain rfl := beq_iff_eq.1 hc
    obtain ⟨htake, hdrop⟩ := takeWhile_digits hds fun c hc => (ht c hc).1
    rw [List.cons_append, fraction, htake, hdrop]
  · cases t with
    | nil => rfl
    | cons c t => simp [fraction, (ht c rfl).2]

/-- What follows the digits of a number is no digit, unless nothing follows. -/
theorem head_fraction {f t : Text} (hf : f ∈ fractionPattern.optional.language)
    (ht : ∀ c ∈ t.head?, Text.isDigit c = false) : ∀ c ∈ (f ++ t).head?, Text.isDigit c = false := by
  rcases mem_optional.1 hf with hf | rfl
  · obtain ⟨c, ds, hc, -, rfl⟩ := mem_run.1 hf
    obtain rfl := beq_iff_eq.1 hc
    rintro c ⟨⟩
    decide
  · exact ht

/-- **A number ahead is read.** -/
theorem number_reaches {ds f e : Text} (hds : ∀ d ∈ ds, Text.isDigit d = true)
    (hf : f ∈ fractionPattern.optional.language) (he : e ∈ exponentPattern.optional.language)
    (u : Text) : ds ++ (f ++ e) <+: (number (ds ++ (f ++ (e ++ u)))).1 := by
  rw [number]
  rcases mem_optional.1 he with he | rfl
  · -- The exponent keeps what is before it from going on.
    have hhead := head_exponent (u := u) he
    obtain ⟨htake, hdrop⟩ := takeWhile_digits hds (head_fraction hf fun c hc => (hhead c hc).1)
    rw [htake, hdrop, fraction_append_of_mem hf hhead, List.append_assoc]
    exact (List.prefix_append_right_inj ds).2
      ((List.prefix_append_right_inj f).2 (exponent_reaches he u))
  rw [List.append_nil, List.nil_append]
  rcases mem_optional.1 hf with hf | rfl
  · obtain ⟨c, fs, hc, hfs, rfl⟩ := mem_run.1 hf
    obtain rfl := beq_iff_eq.1 hc
    obtain ⟨htake, hdrop⟩ := takeWhile_digits (t := '.' :: (fs ++ u)) hds (by rintro c ⟨⟩; decide)
    rw [List.cons_append, htake, hdrop, List.append_assoc]
    exact (List.prefix_append_right_inj ds).2
      ((fraction_reaches hfs u).trans (List.prefix_append _ _))
  · rw [List.append_nil, List.nil_append, List.takeWhile_append_of_pos hds, List.append_assoc,
      List.append_assoc]
    exact List.prefix_append ds _

theorem reaches_number {p : Text} (h : p ∈ numberPattern.language) : Kind.number.Reaches p := by
  obtain ⟨_, hfront, _, htail, rfl⟩ := mem_seq.1 h
  obtain ⟨d, ds, hd, hds, rfl⟩ := mem_run.1 hfront
  obtain ⟨f, hf, e, he, rfl⟩ := mem_seq.1 htail
  intro u
  rw [List.append_assoc, List.append_assoc]
  refine ⟨_, _, read?_digit hd _, ?_, fun _ => rfl⟩
  exact number_reaches (List.forall_mem_cons.2 ⟨hd, hds⟩) hf he u

/-- Parts of a quoted text do not close it. -/
theorem closeQuote_append_of_mem {quote : Char} (hq : quote ≠ '\\') {inner : Text}
    (h : inner ∈ (many (quotedPart quote)).language) (u : Text) :
    closeQuote quote (inner ++ quote :: u) = some (inner ++ [quote], u) := by
  refine many_induction
    (motive := fun inner => closeQuote quote (inner ++ quote :: u) = some (inner ++ [quote], u))
    ?_ ?_ h
  · rw [List.nil_append, closeQuote, if_pos rfl]
    · rfl
    · rintro c t rfl
      exact absurd rfl hq
  · intro x t hx ih
    rcases mem_either.1 hx with ⟨c, hc, rfl⟩ | hx
    · simp only [Bool.and_eq_true, bne_iff_ne] at hc
      rw [List.append_assoc, List.singleton_append, closeQuote, if_neg hc.1, ih]
      · rfl
      · rintro d r rfl
        exact absurd rfl hc.2
    · obtain ⟨b, _, hb, ⟨c, -, rfl⟩, rfl⟩ := mem_seq_one.1 hx
      obtain rfl := beq_iff_eq.1 hb
      rw [List.append_assoc]
      exact (congrArg (Option.map _) ih)

theorem reaches_quoted {quote : Char} (hq : quote = '"' ∨ quote = '\'') {p : Text}
    (h : p ∈ (quotedPattern quote).language) : Kind.quoted.Reaches p := by
  obtain ⟨inner, hinner, rfl⟩ := mem_quotedPattern.1 h
  have hne : quote ≠ '\\' := by rcases hq with rfl | rfl <;> decide
  intro u
  refine ⟨⟨.quoted, quote :: (inner ++ [quote])⟩, u, ?_, List.prefix_refl _, fun _ => rfl⟩
  rw [List.cons_append, List.append_assoc, read?_quote hq]
  exact congrArg (Option.map _) (closeQuote_append_of_mem hne hinner u)

/-- A table whose spellings differ, and do not get longer, is read to the longest of them. -/
theorem readFixed?_reaches {table : List (String × Kind)} {w : String} {kind : Kind}
    (hsorted : table.Pairwise fun p q =>
      q.1.toList.length ≤ p.1.toList.length ∧ p.1.toList ≠ q.1.toList)
    (hw : (w, kind) ∈ table) (u : Text) :
    ∃ token rest, readFixed? table (w.toList ++ u) = some (token, rest) ∧
      w.toList <+: token.text ∧ (token.text = w.toList → token.kind = kind) := by
  induction table with
  | nil => exact absurd hw List.not_mem_nil
  | cons p others ih =>
    obtain ⟨spelling, kind'⟩ := p
    obtain ⟨hfirst, hothers⟩ := List.pairwise_cons.1 hsorted
    rw [readFixed?]
    rcases List.mem_cons.1 hw with heq | hw
    · cases heq
      rw [Text.dropPrefix?_append_self]
      exact ⟨_, _, rfl, List.prefix_refl _, fun _ => rfl⟩
    · split
      · next rest hrest =>
        -- A longer spelling in front of the table is taken instead.
        obtain ⟨hle, hne⟩ := hfirst _ hw
        refine ⟨_, _, rfl, ?_, fun heq => absurd heq hne⟩
        exact List.prefix_of_prefix_length_le (List.prefix_append _ u)
          ⟨rest, dropPrefix?_append hrest⟩ hle
      · exact ih hothers hw

theorem reaches_fixed {w : String} {kind : Kind} (hw : (w, kind) ∈ fixed) :
    kind.Reaches w.toList := by
  intro u
  rw [read?_fixed hw]
  exact readFixed?_reaches (by decide) hw u

/-- **What matches is reached.** -/
theorem Kind.Matches.reaches {kind : Kind} {p : Text} (h : kind.Matches p) : kind.Reaches p := by
  rcases matches_iff.1 h with ⟨pattern, hrun, hp⟩ | ⟨w, hw, rfl⟩
  · simp only [runs, List.mem_cons, Prod.mk.injEq, List.not_mem_nil, or_false] at hrun
    rcases hrun with ⟨rfl, rfl⟩ | ⟨rfl, rfl⟩ | ⟨rfl, rfl⟩ | ⟨rfl, rfl⟩ | ⟨rfl, rfl⟩ | ⟨rfl, rfl⟩
    · obtain ⟨c, r, hc, hr, rfl⟩ := mem_run.1 hp
      exact reaches_run (read?_blank hc) hr
    · obtain ⟨c, r, hc, hr, rfl⟩ := mem_run.1 hp
      obtain rfl := beq_iff_eq.1 hc
      exact reaches_run (fun t => rfl) hr
    · obtain ⟨c, r, hc, hr, rfl⟩ := mem_run.1 hp
      exact reaches_run (read?_name hc) hr
    · exact reaches_number hp
    · exact reaches_quoted (.inl rfl) hp
    · exact reaches_quoted (.inr rfl) hp
  · exact reaches_fixed hw

/-- **A text that matches is one token.** -/
theorem Kind.Matches.read?_eq {kind : Kind} {p : Text} (h : kind.Matches p) :
    read? p = some (⟨kind, p⟩, []) := by
  obtain ⟨token, rest, hread, hp, hkind⟩ := h.reaches []
  rw [List.append_nil] at hread
  have happend := (read?_append hread).1
  have htext : token.text = p := List.IsPrefix.eq_of_length_le ⟨rest, happend⟩ hp.length_le
  have hrest : rest = [] := by rwa [htext, List.append_right_eq_self] at happend
  rw [hread, hrest, ← htext, ← hkind htext]

/-- **A text matches at most one kind.** -/
theorem Kind.Matches.unique {k l : Kind} {p : Text} (hk : k.Matches p) (hl : l.Matches p) :
    k = l := by
  cases hk.read?_eq.symm.trans hl.read?_eq
  rfl

/-! ## The longest match -/

/-- **The longest match that starts a text**, with the one kind that it matches. -/
structure IsLongest (token : Token) (t : Text) : Prop where
  ne_nil : token.text ≠ []
  starts : token.text <+: t
  fits : token.kind.Matches token.text
  longest : ∀ kind : Kind, ∀ p, p <+: t → kind.Matches p → p.length ≤ token.text.length
  unique : ∀ kind : Kind, kind.Matches token.text → kind = token.kind

/-- **What is read is the longest match.** -/
theorem isLongest_of_read? {t rest : Text} {token : Token} (h : read? t = some (token, rest)) :
    token.IsLongest t := by
  obtain ⟨happend, hne⟩ := read?_append h
  have hfits := matches_of_read? h
  refine ⟨hne, ⟨rest, happend⟩, hfits, ?_, fun kind hk => hk.unique hfits⟩
  rintro kind p ⟨u, rfl⟩ hp
  obtain ⟨_, _, hread, hlong, -⟩ := hp.reaches u
  cases hread.symm.trans h
  exact hlong.length_le

/-- **Nothing is read only where nothing matches.** -/
theorem read?_eq_none_iff {t : Text} :
    read? t = none ↔ ¬ ∃ kind : Kind, ∃ p, p ≠ [] ∧ p <+: t ∧ kind.Matches p := by
  constructor
  · rintro hnone ⟨kind, p, -, ⟨u, rfl⟩, hp⟩
    obtain ⟨_, _, hread, -⟩ := hp.reaches u
    rw [hnone] at hread
    cases hread
  · intro hno
    rw [Option.eq_none_iff_forall_ne_some]
    rintro ⟨token, rest⟩ hread
    obtain ⟨happend, hne⟩ := read?_append hread
    exact hno ⟨token.kind, token.text, hne, ⟨rest, happend⟩, matches_of_read? hread⟩

end Token

/-! ## A cursor moves by the longest match -/

namespace Cursor

/-- A token is read from the text ahead, and moved over. -/
theorem nextToken_eq_ok_iff {c moved : Cursor} {token : Token} :
    c.nextToken = .ok (token, moved) ↔
      ∃ rest, Token.read? c.rest = some (token, rest) ∧ moved = c.move token.text rest := by
  simp only [← Token.next_eq_ok_iff, nextToken]
  cases Token.next c.rest with
  | error stuck => simp
  | ok result =>
    obtain ⟨token', rest⟩ := result
    constructor
    · rintro ⟨⟩
      exact ⟨rest, rfl, rfl⟩
    · rintro ⟨_, ⟨⟩, rfl⟩
      rfl

/-- A cursor with text ahead and no token there complains about the text. -/
theorem nextToken_of_read?_eq_none {c : Cursor} (h : Token.read? c.rest = none)
    (hne : c.rest ≠ []) :
    c.nextToken = .error ⟨.noToken (c.rest.take Token.previewLength), c.rest⟩ := by
  obtain ⟨d, t, hdt⟩ := List.exists_cons_of_ne_nil hne
  rw [hdt] at h
  simp only [nextToken, hdt, Token.next, h]

theorem length_lt_of_nextToken {c moved : Cursor} {token : Token}
    (h : c.nextToken = .ok (token, moved)) : moved.rest.length < c.rest.length := by
  obtain ⟨rest, hread, rfl⟩ := nextToken_eq_ok_iff.1 h
  exact Token.length_lt_of_next (Token.next_eq_ok_iff.2 hread)

/-- **All tokens ahead**, and the cursor behind them, where no other can be read. -/
def tokens (c : Cursor) : List Token × Cursor :=
  match _h : c.nextToken with
  | .ok (token, moved) =>
    let (others, last) := moved.tokens
    (token :: others, last)
  | .error _ => ([], c)
termination_by c.rest.length
decreasing_by exact length_lt_of_nextToken _h

theorem tokens_of_ok {c moved : Cursor} {token : Token} (h : c.nextToken = .ok (token, moved)) :
    c.tokens = (token :: moved.tokens.1, moved.tokens.2) := by
  rw [tokens]
  split
  · next heq =>
    cases heq.symm.trans h
    rfl
  · next heq => cases heq.symm.trans h

theorem tokens_of_error {c : Cursor} {stuck : Stuck} (h : c.nextToken = .error stuck) :
    c.tokens = ([], c) := by
  rw [tokens]
  split
  · next heq => cases heq.symm.trans h
  · rfl

/-- **The texts of a list of tokens**, one after the other. -/
def spelled (tokens : List Token) : Text := tokens.flatMap Token.text

@[simp] theorem spelled_cons (token : Token) (tokens : List Token) :
    spelled (token :: tokens) = token.text ++ spelled tokens := List.flatMap_cons

/-- Two moves are one. -/
theorem move_move (c : Cursor) (a b r rest : Text) :
    (c.move a r).move b rest = c.move (a ++ b) rest := by
  simp only [move, Text.size_append, Text.newlines_append, Nat.add_assoc]

/-- **A text splits into longest matches**: `tokens` are read one after the other, and `rest`, the
text behind them, starts with no other. -/
inductive Splits : Text → List Token → Text → Prop
  | done {rest : Text} (none : Token.read? rest = none) : Splits rest [] rest
  | token {t r rest : Text} {token : Token} {tokens : List Token} (longest : token.IsLongest t)
      (append : token.text ++ r = t) (others : Splits r tokens rest) :
      Splits t (token :: tokens) rest

/-- The tokens, and what is left, make up the text. -/
theorem Splits.append_rest {t rest : Text} {tokens : List Token} (h : Splits t tokens rest) :
    spelled tokens ++ rest = t := by
  induction h with
  | done => rfl
  | token _ append _ ih => rw [spelled_cons, List.append_assoc, ih, append]

/-- No token of a split is empty. -/
theorem Splits.ne_nil {t rest : Text} {tokens : List Token} (h : Splits t tokens rest) :
    ∀ token ∈ tokens, token.text ≠ [] := by
  induction h with
  | done => exact fun _ h => absurd h List.not_mem_nil
  | token longest _ _ ih => exact List.forall_mem_cons.2 ⟨longest.ne_nil, ih⟩

/-- **Reading token by token splits the text**, and moves over what was read. -/
theorem splits_tokens (c : Cursor) :
    Splits c.rest c.tokens.1 c.tokens.2.rest ∧
      c.tokens.2 = c.move (spelled c.tokens.1) c.tokens.2.rest := by
  induction hn : c.rest.length using Nat.strong_induction_on generalizing c with
  | _ n ih =>
    cases h : c.nextToken with
    | error stuck =>
      rw [tokens_of_error h]
      refine ⟨.done ?_, rfl⟩
      rw [Option.eq_none_iff_forall_ne_some]
      rintro ⟨token, rest⟩ hread
      cases h.symm.trans (nextToken_eq_ok_iff.2 ⟨rest, hread, rfl⟩)
    | ok result =>
      obtain ⟨token, moved⟩ := result
      have hlt := length_lt_of_nextToken h
      obtain ⟨hsplits, hmove⟩ := ih _ (hn ▸ hlt) moved rfl
      rw [tokens_of_ok h]
      obtain ⟨rest, hread, rfl⟩ := nextToken_eq_ok_iff.1 h
      refine ⟨.token (Token.isLongest_of_read? hread) (Token.read?_append hread).1 hsplits, ?_⟩
      rw [spelled_cons, ← move_move c token.text (spelled _) rest]
      exact hmove

/-- Where no token can be read, the text is at its end or nothing matches there. -/
theorem nextToken_tokens (c : Cursor) :
    c.tokens.2.rest = [] ∨ c.tokens.2.nextToken =
      .error ⟨.noToken (c.tokens.2.rest.take Token.previewLength), c.tokens.2.rest⟩ := by
  have hnone : ∀ {t rest : Text} {tokens : List Token}, Splits t tokens rest →
      Token.read? rest = none := by
    intro t rest tokens h
    induction h with
    | done none => exact none
    | token _ _ _ ih => exact ih
  by_cases hend : c.tokens.2.rest = []
  · exact .inl hend
  · exact .inr (nextToken_of_read?_eq_none (hnone c.splits_tokens.1) hend)

/-- **The next token is the longest match.**  Where a match starts the text ahead, the token is the
longest one, its kind is the only one, and the cursor moves over just that token; where none does,
the cursor stays and the complaint quotes the text.  Reading on and on splits the text into such
tokens, up to the end or to a place where nothing matches. -/
theorem nextToken_isLongest (c : Cursor) :
    ((∃ kind : Token.Kind, ∃ p, p ≠ [] ∧ p <+: c.rest ∧ kind.Matches p) →
      ∃ token rest, c.nextToken = .ok (token, c.move token.text rest) ∧ token.IsLongest c.rest ∧
        token.text ++ rest = c.rest) ∧
    (c.rest ≠ [] → (¬ ∃ kind : Token.Kind, ∃ p, p ≠ [] ∧ p <+: c.rest ∧ kind.Matches p) →
      ∃ stuck, c.nextToken = .error stuck ∧ stuck.fault.code = .noToken ∧
        stuck.fault = .noToken (c.rest.take Token.previewLength) ∧ stuck.rest = c.rest) ∧
    (Splits c.rest c.tokens.1 c.tokens.2.rest ∧ (∀ token ∈ c.tokens.1, token.text ≠ []) ∧
      spelled c.tokens.1 ++ c.tokens.2.rest = c.rest ∧
      c.tokens.2 = c.move (spelled c.tokens.1) c.tokens.2.rest ∧
      (c.tokens.2.rest = [] ∨ ∃ stuck, c.tokens.2.nextToken = .error stuck ∧
        stuck.fault.code = .noToken ∧ stuck.rest = c.tokens.2.rest)) := by
  obtain ⟨hsplits, hmove⟩ := c.splits_tokens
  refine ⟨?_, ?_, hsplits, hsplits.ne_nil, hsplits.append_rest, hmove, ?_⟩
  · intro hmatch
    cases hread : Token.read? c.rest with
    | none => exact absurd hmatch (Token.read?_eq_none_iff.1 hread)
    | some result =>
      obtain ⟨token, rest⟩ := result
      exact ⟨token, rest, nextToken_eq_ok_iff.2 ⟨rest, hread, rfl⟩,
        Token.isLongest_of_read? hread, (Token.read?_append hread).1⟩
  · intro hne hnone
    exact ⟨_, nextToken_of_read?_eq_none (Token.read?_eq_none_iff.2 hnone) hne, rfl, rfl, rfl⟩
  · exact c.nextToken_tokens.imp_right fun h => ⟨_, h, rfl, rfl⟩

/-- The lexer backs up: the exponent that `1.5e+` begins is not there. -/
theorem nextToken_isLongest_backs_up :
    ∃ rest, (start "1.5e+".toList).nextToken =
        .ok (⟨.number, "1.5".toList⟩, (start "1.5e+".toList).move "1.5".toList rest) ∧
      (⟨.number, "1.5".toList⟩ : Token).IsLongest "1.5e+".toList := by
  have hmatch : Token.Kind.number.Matches "1.5".toList :=
    Token.matches_of_read? (show Token.read? "1.5".toList = some (⟨.number, "1.5".toList⟩, []) from rfl)
  obtain ⟨token, rest, hnext, hlongest, -⟩ :=
    (nextToken_isLongest (start "1.5e+".toList)).1
      ⟨.number, _, by decide, ⟨"e+".toList, rfl⟩, hmatch⟩
  obtain rfl : token = ⟨.number, "1.5".toList⟩ := by
    cases hnext
    rfl
  exact ⟨rest, hnext, hlongest⟩

end Cursor

end Stencil
