import Stencil.Proofs.Expr.Sound
import Stencil.Proofs.Expr.Stuck

/-!
# Proofs/Expr/Spacing — an expression is its tokens

    text ──┐
           ├── the same tokens ──▸ the same tree, or the same fault, before the same token
    text ──┘

A reader looks at a text in two ways: it takes the next token, and it peeks at the next character
that is no blank.  Both are decided by the tokens of the text, since the first character of a token
is that of the text behind its blanks (`Ahead.starts`).  So readers that stand before the same
tokens agree at every step (`Agree`), level by level, and `readTag_spacing` says it of a whole tag.
-/

namespace Stencil

/-! ## Whole texts -/

/-- **The tokens of a whole text**, blanks included: one token is read after the other, up to the
end of the text. -/
inductive Lexes : Text → List Token → Prop
  | done : Lexes [] []
  | token {t rest : Text} {token : Token} {tokens : List Token}
      (first : Token.next t = .ok (token, rest)) (others : Lexes rest tokens) :
      Lexes t (token :: tokens)

/-- The tokens that are no blanks. -/
def Token.visible (tokens : List Token) : List Token := tokens.filter fun t => t.kind ≠ .space

/-- A text starts with a blank exactly if its first token is one. -/
theorem Token.isBlank_iff_of_next {c : Char} {t rest : Text} {token : Token}
    (h : next (c :: t) = .ok (token, rest)) : Text.isBlank c = true ↔ token.kind = .space := by
  have htable : ∀ p ∈ fixed, p.2 ≠ .space := by decide
  refine ⟨fun hc => ?_, fun hk => ?_⟩
  · rw [next_eq_ok_iff, read?, if_pos hc] at h
    cases h
    rfl
  · rcases next_cases h with
      ⟨hc, -⟩ | ⟨-, hs⟩ | ⟨-, rfl⟩ | ⟨-, rfl⟩ | ⟨-, _, -, rfl⟩ | ⟨p, hp, rfl⟩
    · exact hc
    · rw [hs] at hk; cases hk
    · cases hk
    · cases hk
    · cases hk
    · exact absurd hk (htable p hp)

theorem Token.next_blank {c : Char} (hc : Text.isBlank c = true) (t : Text) :
    next (c :: t) = .ok (⟨.space, c :: t.takeWhile Text.isBlank⟩, Text.trimStart (c :: t)) := by
  rw [next_eq_ok_iff, read?, if_pos hc, Text.trimStart, List.dropWhile_cons_of_pos hc]

/-- **Leaving the blanks out is reading the visible tokens.** -/
theorem Lexes.reads {t : Text} {tokens : List Token} (h : Lexes t tokens) :
    Reads t (Token.visible tokens) [] := by
  induction h with
  | done => exact .done []
  | @token t rest token tokens first _ ih =>
    obtain ⟨c, r, rfl⟩ := Token.exists_cons_of_next first
    by_cases hk : token.kind = .space
    · have hc := (Token.isBlank_iff_of_next first).2 hk
      obtain ⟨rfl, rfl⟩ := Prod.mk.inj (Except.ok.inj (first.symm.trans (Token.next_blank hc r)))
      exact Reads.trimStart_iff.1 ih
    · have hc : Text.isBlank c = false := by
        rw [Bool.eq_false_iff]
        exact fun hc => hk ((Token.isBlank_iff_of_next first).1 hc)
      have hvisible : Token.visible (token :: tokens) = token :: Token.visible tokens :=
        List.filter_cons_of_pos (by simpa using hk)
      rw [hvisible]
      exact .token (by rw [Text.trimStart_cons hc, first]) ih

/-- Blanks in front of a text are one more token. -/
theorem Lexes.of_trimStart {t : Text} {tokens : List Token} (h : Lexes (Text.trimStart t) tokens) :
    ∃ all, Lexes t all ∧ Token.visible all = Token.visible tokens := by
  cases t with
  | nil => exact ⟨tokens, h, rfl⟩
  | cons c r =>
    by_cases hc : Text.isBlank c = true
    · exact ⟨_, .token (Token.next_blank hc r) h, rfl⟩
    · rw [Text.trimStart_cons (by simpa using hc)] at h
      exact ⟨tokens, h, rfl⟩

/-- Tokens up to the end of a text are all its visible tokens. -/
theorem Reads.lexes {t : Text} {tokens : List Token} (h : Reads t tokens []) :
    ∃ all, Lexes t all ∧ Token.visible all = tokens := by
  induction tokens generalizing t with
  | nil =>
    have hnil : Lexes (Text.trimStart t) [] := by
      rw [Reads.nil_iff.1 h]
      exact .done
    exact hnil.of_trimStart
  | cons token tokens ih =>
    obtain ⟨r, first, others⟩ := Reads.cons_iff.1 h
    obtain ⟨all, hall, rfl⟩ := ih others
    obtain ⟨more, hmore, hvisible⟩ := (Lexes.token first hall).of_trimStart
    refine ⟨more, hmore, hvisible.trans (List.filter_cons_of_pos ?_)⟩
    obtain ⟨c, r', hc⟩ := Token.exists_cons_of_next first
    rw [hc] at first
    have hblank := Text.isBlank_head_trimStart hc
    simp only [ne_eq, decide_not, Bool.not_eq_true', decide_eq_false_iff_not]
    rw [← Token.isBlank_iff_of_next first, hblank]
    nofun

/-! ## Before the same tokens -/

/-- **Two texts stand before the same tokens**, which end `tokens`. -/
def Ahead (tokens : List Token) (t u : Text) : Prop :=
  ∃ left, left <:+ tokens ∧ Reads t left [] ∧ Reads u left []

namespace Ahead

variable {tokens : List Token} {t u : Text}

theorem trimStart (h : Ahead tokens t u) :
    Ahead tokens (Text.trimStart t) (Text.trimStart u) := by
  obtain ⟨left, hleft, ht, hu⟩ := h
  exact ⟨left, hleft, Reads.trimStart_iff.2 ht, Reads.trimStart_iff.2 hu⟩

/-- **Texts before the same tokens start alike**: they are at their end, or they have the same first
character and the same first token. -/
theorem starts (h : Ahead tokens t u) :
    (Text.trimStart t = [] ∧ Text.trimStart u = []) ∨
      ∃ c r r' token rest rest', Text.trimStart t = c :: r ∧ Text.trimStart u = c :: r' ∧
        Token.next (c :: r) = .ok (token, rest) ∧ Token.next (c :: r') = .ok (token, rest') ∧
        Ahead tokens rest rest' := by
  obtain ⟨left, hleft, ht, hu⟩ := h
  cases left with
  | nil => exact .inl ⟨Reads.nil_iff.1 ht, Reads.nil_iff.1 hu⟩
  | cons token left =>
    obtain ⟨rest, hn, hrest⟩ := Reads.cons_iff.1 ht
    obtain ⟨rest', hn', hrest'⟩ := Reads.cons_iff.1 hu
    obtain ⟨happend, hne⟩ := Token.read?_append (Token.next_eq_ok_iff.1 hn)
    have happend' := Token.append_of_next hn'
    obtain ⟨c, text, htext⟩ := List.exists_cons_of_ne_nil hne
    rw [htext, List.cons_append] at happend happend'
    rw [← happend] at hn
    rw [← happend'] at hn'
    exact .inr ⟨c, _, _, token, rest, rest', happend.symm, happend'.symm, hn, hn',
      left, (List.suffix_cons token left).trans hleft, hrest, hrest'⟩

theorem head_eq (h : Ahead tokens t u) :
    (Text.trimStart t).head? = (Text.trimStart u).head? := by
  rcases h.starts with ⟨ht, hu⟩ | ⟨c, r, r', _, _, _, ht, hu, -⟩ <;> rw [ht, hu]
  rfl

/-- At the end of both texts nothing is ahead. -/
theorem nil (h : Ahead tokens t u) (ht : Text.trimStart t = []) (hu : Text.trimStart u = []) :
    Ahead tokens [] [] := by
  have hnil := h.trimStart
  rwa [ht, hu] at hnil

theorem cons {c : Char} {r r' : Text} (h : Ahead tokens t u) (ht : Text.trimStart t = c :: r)
    (hu : Text.trimStart u = c :: r') : Ahead tokens (c :: r) (c :: r') := by
  have hcons := h.trimStart
  rwa [ht, hu] at hcons

/-- The texts behind a character that is a token by itself. -/
theorem tail {c : Char} {r r' : Text} {token : Token} (h : Ahead tokens (c :: r) (c :: r'))
    (hblank : Text.isBlank c = false) (hc : ∀ t, Token.next (c :: t) = .ok (token, t)) :
    Ahead tokens r r' := by
  rcases h.starts with ⟨ht, -⟩ | ⟨d, a, a', _, rest, rest', ht, hu, hn, hn', hrest⟩
  · rw [Text.trimStart_cons hblank] at ht
    cases ht
  · rw [Text.trimStart_cons hblank] at ht hu
    cases ht
    cases hu
    rw [hc] at hn hn'
    cases hn
    cases hn'
    exact hrest

end Ahead

/-! ## Agreement -/

/-- Two readers have read the same, and stand before the same tokens. -/
def Same {α : Type} (tokens : List Token) (a b : α × Text) : Prop :=
  a.1 = b.1 ∧ Ahead tokens a.2 b.2

/-- **Two readers agree**: they give the same, or they stop at the same fault, before the same
tokens. -/
inductive Agree (tokens : List Token) {α : Type} (same : α → α → Prop) :
    Except Stuck α → Except Stuck α → Prop
  | ok {a b : α} (h : same a b) : Agree tokens same (.ok a) (.ok b)
  | error {fault : Fault} {t u : Text} (h : Ahead tokens t u) :
      Agree tokens same (.error ⟨fault, t⟩) (.error ⟨fault, u⟩)

/-- Readers agree in sequence if they do in each step. -/
theorem Agree.bind {tokens : List Token} {α β : Type} {same : α → α → Prop} {same' : β → β → Prop}
    {x y : Except Stuck α} {f g : α → Except Stuck β} (h : Agree tokens same x y)
    (hf : ∀ a b, x = .ok a → same a b → Agree tokens same' (f a) (g b)) :
    Agree tokens same' (x >>= f) (y >>= g) := by
  cases h with
  | ok h => exact hf _ _ rfl h
  | error h => exact .error h

section Readers

variable {tokens : List Token} {s : Scope} {inner : Option Inner} {ctx : Context} {t u : Text}

theorem needToken_agree (h : Ahead tokens t u) (before : Option Text) :
    Agree tokens (Same tokens) (needToken ctx before t) (needToken ctx before u) := by
  rcases h.starts with ⟨ht, hu⟩ | ⟨c, r, r', token, rest, rest', ht, hu, hn, hn', hrest⟩
  · simp only [needToken, ht, hu]
    exact .error (h.nil ht hu)
  have hcons := h.cons ht hu
  simp only [needToken, ht, hu, hn, hn']
  by_cases hstop : isStop c = true
  · simp only [hstop, if_true]
    by_cases hends : ctx.ends c = true
    · simp only [hends, if_true]
      cases before <;> exact .error hcons
    · simp only [hends, Bool.false_eq_true, if_false]
      exact .error hcons
  · simp only [hstop, Bool.false_eq_true, if_false]
    by_cases hk : token.kind = .crement
    · simp only [hk, if_true]
      exact .error hrest
    · simp only [hk, if_false]
      exact .ok ⟨rfl, hrest⟩

theorem needName_agree (h : Ahead tokens t u) :
    Agree tokens (Same tokens) (needName ctx t) (needName ctx u) := by
  refine (needToken_agree h (some ".")).bind ?_
  rintro ⟨token, rest⟩ ⟨_, rest'⟩ - ⟨rfl, hrest⟩
  dsimp only
  by_cases hk : token.kind = .name
  · simp only [hk, if_true]
    exact .ok ⟨rfl, hrest⟩
  · simp only [hk, if_false]
    exact .error hrest

/-- A character that was asked for, and is a token by itself. -/
theorem needChar_agree {c : Char} {token : Token} (hblank : Text.isBlank c = false)
    (hc : ∀ t, Token.next (c :: t) = .ok (token, t)) (h : Ahead tokens t u) :
    Agree tokens (Ahead tokens) (needChar ctx c t) (needChar ctx c u) := by
  rcases h.starts with ⟨ht, hu⟩ | ⟨d, r, r', _, _, _, ht, hu, -⟩
  · simp only [needChar, ht, hu]
    exact .error (h.nil ht hu)
  have hcons := h.cons ht hu
  simp only [needChar, ht, hu]
  by_cases hd : d = c
  · subst hd
    simp only [if_true]
    exact .ok (hcons.tail hblank hc)
  · simp only [hd, if_false]
    exact .error hcons

theorem needOpener_agree (bracket : Bracket) (h : Ahead tokens t u) :
    Agree tokens (Ahead tokens) (needChar ctx bracket.opener t) (needChar ctx bracket.opener u) :=
  needChar_agree (by cases bracket <;> decide) (Token.next_opener bracket) h

theorem needCloser_agree (bracket : Bracket) (h : Ahead tokens t u) :
    Agree tokens (Ahead tokens) (needChar ctx bracket.closer t) (needChar ctx bracket.closer u) :=
  needChar_agree (by cases bracket <;> decide) (Token.next_closer bracket) h

theorem needEnd_agree (h : Ahead tokens t u) :
    Agree tokens (Ahead tokens) (needEnd ctx t) (needEnd ctx u) := by
  rcases h.starts with ⟨ht, hu⟩ | ⟨c, r, r', _, _, _, ht, hu, -⟩
  · simp only [needEnd, ht, hu]
    exact .error (h.nil ht hu)
  have hcons := h.cons ht hu
  simp only [needEnd, ht, hu]
  by_cases hends : ctx.ends c = true
  · simp only [hends, if_true]
    exact .ok hcons
  · simp only [hends, Bool.false_eq_true, if_false]
    exact .error hcons

/-! ## Chains -/

section Steps

variable {chain : Chain} {name : Text}

/-- Texts before the same tokens start with the same run of dots. -/
theorem Ahead.dots {r r' : Text} (h : Ahead tokens ('.' :: r) ('.' :: r')) :
    r.takeWhile (· == '.') = r'.takeWhile (· == '.') ∧
      Ahead tokens (r.dropWhile (· == '.')) (r'.dropWhile (· == '.')) := by
  have hblank : Text.isBlank '.' = false := by decide
  rcases h.starts with ⟨ht, -⟩ | ⟨c, a, a', token, rest, rest', ht, hu, hn, hn', hrest⟩
  · rw [Text.trimStart_cons hblank] at ht
    cases ht
  · rw [Text.trimStart_cons hblank] at ht hu
    cases ht
    cases hu
    rw [Token.next_dots] at hn hn'
    obtain ⟨rfl, rfl⟩ := Prod.mk.inj (Except.ok.inj hn)
    obtain ⟨htoken, rfl⟩ := Prod.mk.inj (Except.ok.inj hn')
    exact ⟨(List.cons.inj (Token.mk.inj htoken).2).2.symm, hrest⟩

variable (hfirst : ¬(name ∈ reservedWords ∧
    ((!chain.isEmpty) = true ∨ (Text.trimStart t).head? = some '(')))
  (hthis : ¬(name ∈ reservedWords ∧ name ≠ "this"))

include hfirst hthis

/-- A name with dots behind it. -/
theorem readChain_dots {r : Text} (ht : Text.trimStart t = '.' :: r) :
    readChain s ctx chain name t =
      if 1 < ('.' :: r.takeWhile (· == '.')).length then
        .error ⟨.unexpected ((chain.push name).raw ++ '.' :: r.takeWhile (· == '.')),
          r.dropWhile (· == '.')⟩
      else
        needName ctx (r.dropWhile (· == '.')) >>= fun found =>
          readChain s ctx (chain.push name) found.1 found.2 := by
  rw [readChain, if_neg hfirst, if_neg hthis]
  split
  · next r' ht' =>
    obtain rfl : r' = r := (List.cons.inj (ht'.symm.trans ht)).2
    dsimp only
    split
    · rfl
    · split <;> next hname => rw [hname]; rfl
  · next hno => exact absurd ht (hno r)

/-- A name that ends its chain. -/
theorem readChain_whole (hdot : (Text.trimStart t).head? ≠ some '.') :
    readChain s ctx chain name t =
      match (chain.push name).resolve s ((Text.trimStart t).head? = some '(') with
      | .error fault => .error ⟨fault, t⟩
      | .ok target => .ok ((chain.push name, target, (Text.trimStart t).head? = some '('), t) := by
  rw [readChain, if_neg hfirst, if_neg hthis]
  split
  · next r ht => rw [ht] at hdot; exact absurd rfl hdot
  · rfl

end Steps

theorem readChain_agree (chain : Chain) (name : Text) (h : Ahead tokens t u) :
    Agree tokens (Same tokens) (readChain s ctx chain name t) (readChain s ctx chain name u) := by
  induction hlength : t.length using Nat.strongRecOn generalizing chain name t u with
  | ind n ih =>
  have hhead := h.head_eq
  by_cases hfirst : name ∈ reservedWords ∧
      ((!chain.isEmpty) = true ∨ (Text.trimStart t).head? = some '(')
  · rw [readChain, if_pos hfirst, readChain, if_pos (hhead ▸ hfirst)]
    exact .error h
  have hfirst' := hfirst
  rw [hhead] at hfirst'
  by_cases hthis : name ∈ reservedWords ∧ name ≠ "this"
  · rw [readChain, if_neg hfirst, if_pos hthis, readChain, if_neg hfirst', if_pos hthis, hhead]
    split
    · exact .error h
    · exact .ok ⟨rfl, h⟩
  by_cases hdot : (Text.trimStart t).head? = some '.'
  · obtain ⟨r, ht⟩ := List.head?_eq_some_iff.1 hdot
    obtain ⟨r', hu⟩ := List.head?_eq_some_iff.1 (hhead ▸ hdot)
    obtain ⟨hrun, hrest⟩ := (h.cons ht hu).dots
    rw [readChain_dots hfirst hthis ht, readChain_dots hfirst' hthis hu, ← hrun]
    split
    · exact .error hrest
    refine (needName_agree hrest).bind ?_
    rintro ⟨next, rest⟩ ⟨_, rest'⟩ hname ⟨rfl, hrest'⟩
    refine ih _ ?_ _ _ hrest' rfl
    have hshorter := ((needName_shorter hname).trans_suffix (List.dropWhile_suffix _)).trans
      (Shorter.of_trimStart ht)
    exact hlength ▸ hshorter.2
  · rw [readChain_whole hfirst hthis hdot, readChain_whole hfirst' hthis (hhead ▸ hdot), hhead]
    split
    · exact .error h
    · exact .ok ⟨rfl, h⟩

/-! ## Groups -/

/-- **The readers one level down agree.** -/
def InnerAgrees (tokens : List Token) (inner : Option Inner) : Prop :=
  ∀ reader ∈ inner, ∀ ctx t u, Ahead tokens t u →
    Agree tokens (Same tokens) (reader.read ctx t) (reader.read ctx u)

theorem readInner_agree (hinner : InnerAgrees tokens inner) (h : Ahead tokens t u) :
    Agree tokens (Same tokens) (readInner inner ctx t) (readInner inner ctx u) := by
  cases inner with
  | none => exact .error h
  | some reader => exact hinner reader rfl ctx t u h

theorem readSingle_agree (hinner : InnerAgrees tokens inner) (bracket : Bracket)
    (h : Ahead tokens t u) :
    Agree tokens (Same tokens) (readSingle inner ctx bracket t) (readSingle inner ctx bracket u) := by
  refine (readInner_agree hinner h).bind ?_
  rintro ⟨e, rest⟩ ⟨_, rest'⟩ - ⟨rfl, hrest⟩
  exact (needCloser_agree bracket hrest).bind fun _ _ _ hrest' => .ok ⟨rfl, hrest'⟩

theorem readParts_step (reader : Inner) (bracket : Bracket) (ctx : Context) (items : Items)
    {c : Char} {r : Text} (ht : Text.trimStart t = c :: r) :
    readParts reader bracket ctx items t =
      if c = bracket.closer then .ok (items, r)
      else if c = ',' ∨ c = ':' then
        match ctx.after? c with
        | none => .error ⟨.strayDelimiter c, c :: r⟩
        | some next =>
          reader.read next r >>= fun found =>
            readParts reader bracket next
              (if c = ':' then items.withValue found.1 else .item items found.1) found.2
      else .error ⟨ctx.misplaced c, c :: r⟩ := by
  rw [readParts]
  split
  · next hnil => rw [ht] at hnil; cases hnil
  next c' r' ht' =>
  obtain ⟨rfl, rfl⟩ := List.cons.inj (ht'.symm.trans ht)
  split
  · rfl
  split
  · cases hnext : ctx.after? c' with
    | none => rfl
    | some next =>
      dsimp only
      cases hread : reader.read next r' with
      | error stuck => rfl
      | ok found => rfl
  · rfl

theorem readParts_agree {reader : Inner} (hreader : InnerAgrees tokens (some reader))
    (bracket : Bracket) (ctx : Context) (items : Items) (h : Ahead tokens t u) :
    Agree tokens (Same tokens) (readParts reader bracket ctx items t)
      (readParts reader bracket ctx items u) := by
  induction hlength : t.length using Nat.strongRecOn generalizing ctx items t u with
  | ind n ih =>
  rcases h.starts with ⟨ht, hu⟩ | ⟨c, r, r', _, _, _, ht, hu, -⟩
  · have hend : ∀ {v : Text}, Text.trimStart v = [] →
        readParts reader bracket ctx items v = .error ⟨.endInsideTag, []⟩ := by
      intro v hv
      rw [readParts]
      split
      · rfl
      · next hcons => rw [hv] at hcons; cases hcons
    rw [hend ht, hend hu]
    exact .error (h.nil ht hu)
  have hcons := h.cons ht hu
  rw [readParts_step reader bracket ctx items ht, readParts_step reader bracket ctx items hu]
  split
  · next hc =>
    subst hc
    exact .ok ⟨rfl, hcons.tail (by cases bracket <;> decide) (Token.next_closer bracket)⟩
  split
  · next hc =>
    have htail : Ahead tokens r r' := by
      rcases hc with rfl | rfl
      · exact hcons.tail (by decide) Token.next_comma
      · exact hcons.tail (by decide) Token.next_colon
    split
    · exact .error hcons
    · next next _ =>
      refine (hreader reader rfl next r r' htail).bind ?_
      rintro ⟨e, rest⟩ ⟨_, rest'⟩ hread ⟨rfl, hrest⟩
      refine ih _ ?_ _ _ hrest rfl
      exact hlength ▸ ((reader.shorter hread).trans (Shorter.of_trimStart ht)).2
  · exact .error hcons

theorem readGroup_agree (hinner : InnerAgrees tokens inner) (bracket : Bracket)
    (h : Ahead tokens t u) :
    Agree tokens (Same tokens) (readGroup inner bracket ctx t) (readGroup inner bracket ctx u) := by
  cases inner with
  | none => exact .error h
  | some reader =>
  rcases h.starts with ⟨ht, hu⟩ | ⟨c, r, r', _, _, _, ht, hu, -⟩
  · simp only [readGroup, ht, hu]
    exact .error (h.nil ht hu)
  have hcons := h.cons ht hu
  have hread := hinner reader rfl ctx t u h
  simp only [readGroup, ht, hu]
  by_cases hc : c = bracket.closer
  · subst hc
    simp only [if_true]
    exact .ok ⟨rfl, hcons.tail (by cases bracket <;> decide) (Token.next_closer bracket)⟩
  · simp only [hc, if_false]
    generalize hx : reader.read ctx t = x at hread
    generalize hy : reader.read ctx u = y at hread
    cases hread with
    | error hstop => exact .error hstop
    | @ok a b hsame =>
      obtain ⟨e, rest⟩ := a
      obtain ⟨_, rest'⟩ := b
      obtain ⟨rfl, hrest⟩ := hsame
      exact readParts_agree hinner bracket ctx _ hrest

/-! ## Values -/

theorem readNamed_agree (hinner : InnerAgrees tokens inner) (chain : Chain) (name : Text)
    (h : Ahead tokens t u) :
    Agree tokens (Same tokens) (readNamed s inner ctx chain name t)
      (readNamed s inner ctx chain name u) := by
  refine (readChain_agree chain name h).bind ?_
  rintro ⟨⟨full, target, called⟩, rest⟩ ⟨_, rest'⟩ - ⟨rfl, hrest⟩
  dsimp only
  cases called with
  | false => exact .ok ⟨rfl, hrest⟩
  | true =>
    refine (needOpener_agree .paren hrest).bind fun _ _ _ hopen => ?_
    refine (readGroup_agree hinner _ hopen).bind ?_
    rintro ⟨args, _⟩ ⟨_, _⟩ - ⟨rfl, hargs⟩
    exact .ok ⟨rfl, hargs⟩

theorem readPrimary_agree (hinner : InnerAgrees tokens inner) (before : Option Text) (token : Token)
    (h : Ahead tokens t u) :
    Agree tokens (Same tokens) (readPrimary s inner ctx before token t)
      (readPrimary s inner ctx before token u) := by
  unfold readPrimary
  split
  · exact .ok ⟨rfl, h⟩
  · exact .ok ⟨rfl, h⟩
  · exact readNamed_agree hinner _ _ h
  · refine (needToken_agree h _).bind ?_
    rintro ⟨token', rest⟩ ⟨_, rest'⟩ - ⟨rfl, hrest⟩
    dsimp only
    split
    · exact readNamed_agree hinner _ _ hrest
    · exact .error hrest
  · refine (readSingle_agree hinner _ h).bind ?_
    rintro ⟨e, _⟩ ⟨_, _⟩ - ⟨rfl, hrest⟩
    exact .ok ⟨rfl, hrest⟩
  · refine (readGroup_agree hinner _ h).bind ?_
    rintro ⟨items, _⟩ ⟨_, _⟩ - ⟨rfl, hrest⟩
    exact .ok ⟨rfl, hrest⟩
  · exact .error h

theorem readSuffix_agree (hinner : InnerAgrees tokens inner) (value : Value)
    (h : Ahead tokens t u) :
    Agree tokens (Option.Rel (Same tokens)) (readSuffix s inner ctx value t)
      (readSuffix s inner ctx value u) := by
  rcases h.starts with ⟨ht, hu⟩ | ⟨c, r, r', token, rest, rest', ht, hu, hn, hn', hrest⟩
  · simp only [readSuffix, ht, hu]
    exact .ok .none
  simp only [readSuffix, ht, hu]
  by_cases hstop : isStop c = true
  · simp only [hstop, if_true]
    exact .ok .none
  simp only [hstop, Bool.false_eq_true, if_false]
  have hnext : Agree tokens (Same tokens) (Token.next (c :: r)) (Token.next (c :: r')) := by
    rw [hn, hn']
    exact .ok ⟨rfl, hrest⟩
  refine hnext.bind ?_
  rintro ⟨token, rest⟩ ⟨_, rest'⟩ - ⟨rfl, hrest⟩
  dsimp only
  split
  · exact .error hrest
  · split
    · exact .error hrest
    refine (needName_agree hrest).bind ?_
    rintro ⟨name, after⟩ ⟨_, after'⟩ - ⟨rfl, hafter⟩
    dsimp only
    rw [← hafter.head_eq]
    split
    · exact .error hafter
    split
    · exact .error hafter
    refine (needOpener_agree .paren hafter).bind fun _ _ _ hopen => ?_
    refine (readGroup_agree hinner _ hopen).bind ?_
    rintro ⟨args, _⟩ ⟨_, _⟩ - ⟨rfl, hargs⟩
    exact .ok (.some ⟨rfl, hargs⟩)
  · exact .error hrest
  · refine (readSingle_agree hinner _ hrest).bind ?_
    rintro ⟨key, _⟩ ⟨_, _⟩ - ⟨rfl, hkey⟩
    exact .ok (.some ⟨rfl, hkey⟩)
  · exact .error hrest
  · exact .error hrest
  · exact .error hrest
  · exact .error hrest
  · exact .ok .none

theorem readSuffixes_step (value : Value) (t : Text) :
    readSuffixes s inner ctx value t =
      readSuffix s inner ctx value t >>= fun found =>
        match found with
        | none => .ok (value, t)
        | some (value, rest) => readSuffixes s inner ctx value rest := by
  rw [readSuffixes]
  split <;> next hsuffix => rw [hsuffix]; rfl

theorem readSuffixes_agree (hinner : InnerAgrees tokens inner) (value : Value)
    (h : Ahead tokens t u) :
    Agree tokens (Same tokens) (readSuffixes s inner ctx value t)
      (readSuffixes s inner ctx value u) := by
  induction hlength : t.length using Nat.strongRecOn generalizing value t u with
  | ind n ih =>
  rw [readSuffixes_step value t, readSuffixes_step value u]
  refine (readSuffix_agree hinner value h).bind ?_
  rintro _ _ hsuffix (@⟨⟨value', rest⟩, ⟨_, rest'⟩, rfl, hrest⟩ | -)
  · refine ih _ ?_ _ hrest rfl
    exact hlength ▸ (readSuffix_shorter hsuffix).2
  · exact .ok ⟨rfl, h⟩

/-! ## Operands and terms -/

theorem readValue_agree {α : Type} (hinner : InnerAgrees tokens inner) (before : Option Text)
    (token : Token) (h : Ahead tokens t u) (found : Value → α) :
    Agree tokens (Same tokens)
      (do
        let (value, rest) ← readPrimary s inner ctx before token t
        let (value, rest) ← readSuffixes s inner ctx value rest
        return (found value, rest))
      (do
        let (value, rest) ← readPrimary s inner ctx before token u
        let (value, rest) ← readSuffixes s inner ctx value rest
        return (found value, rest)) := by
  refine (readPrimary_agree hinner before token h).bind ?_
  rintro ⟨value, rest⟩ ⟨_, rest'⟩ - ⟨rfl, hrest⟩
  refine (readSuffixes_agree hinner value hrest).bind ?_
  rintro ⟨whole, _⟩ ⟨_, _⟩ - ⟨rfl, hwhole⟩
  exact .ok ⟨rfl, hwhole⟩

theorem readOperand_agree (hinner : InnerAgrees tokens inner) (before : Option Text)
    (h : Ahead tokens t u) :
    Agree tokens (Same tokens) (readOperand s inner ctx before t)
      (readOperand s inner ctx before u) := by
  refine (needToken_agree h before).bind ?_
  rintro ⟨token, rest⟩ ⟨_, rest'⟩ - ⟨rfl, hrest⟩
  dsimp only
  split
  · refine (needToken_agree hrest _).bind ?_
    rintro ⟨first, after⟩ ⟨_, after'⟩ - ⟨rfl, hafter⟩
    dsimp only
    split
    · exact .error hafter
    split
    · exact .error hafter
    · exact readValue_agree hinner _ first hafter fun value => (some token.text, value)
  · exact readValue_agree hinner before token hrest fun value => (none, value)

theorem readBranches_agree (hinner : InnerAgrees tokens inner) (h : Ahead tokens t u) :
    Agree tokens (Same tokens) (readBranches inner ctx t) (readBranches inner ctx u) := by
  refine (readInner_agree hinner h).bind ?_
  rintro ⟨yes, _⟩ ⟨_, _⟩ - ⟨rfl, hyes⟩
  refine (needChar_agree (by decide) Token.next_colon hyes).bind fun _ _ _ hcolon => ?_
  refine (readInner_agree hinner hcolon).bind ?_
  rintro ⟨no, _⟩ ⟨_, _⟩ - ⟨rfl, hno⟩
  exact (needEnd_agree hno).bind fun _ _ _ hend => .ok ⟨rfl, hend⟩

/-- Terms at the end of the text. -/
theorem readTerms_end (terms : Terms) (ht : Text.trimStart t = []) :
    readTerms s inner ctx terms t = .error ⟨.endInsideTag, []⟩ := by
  rw [readTerms]
  split
  · rfl
  · next hcons => rw [ht] at hcons; cases hcons

/-- Terms before a stop character. -/
theorem readTerms_at_stop (terms : Terms) {c : Char} {r : Text}
    (ht : Text.trimStart t = c :: r) (hstop : isStop c = true) :
    readTerms s inner ctx terms t =
      if ctx.ends c then .ok (.plain terms, c :: r) else .error ⟨ctx.misplaced c, c :: r⟩ := by
  rw [readTerms]
  split
  · next hnil => rw [ht] at hnil; cases hnil
  next c' r' ht' =>
  obtain ⟨rfl, rfl⟩ := List.cons.inj (ht'.symm.trans ht)
  rw [if_pos hstop]

/-- Terms before a token that is no stop character. -/
theorem readTerms_step (terms : Terms) {c : Char} {r rest : Text} {token : Token}
    (ht : Text.trimStart t = c :: r) (hstop : isStop c = false)
    (hn : Token.next (c :: r) = .ok (token, rest)) :
    readTerms s inner ctx terms t =
      if token.isBinary then
        readOperand s inner ctx (some token.text) rest >>= fun found =>
          readTerms s inner ctx (.more terms token found.1.1 found.1.2) found.2
      else if token.kind = .question then
        if ctx.isBranch then .error ⟨.nestedTernary, rest⟩
        else
          readBranches inner ctx rest >>= fun found =>
            .ok (.ternary terms found.1.1 found.1.2, found.2)
      else .error ⟨misfit none token, rest⟩ := by
  rw [readTerms]
  split
  · next hnil => rw [ht] at hnil; cases hnil
  next c' r' ht' =>
  obtain ⟨rfl, rfl⟩ := List.cons.inj (ht'.symm.trans ht)
  rw [if_neg (by simp [hstop])]
  split
  · next hn' => rw [hn] at hn'; cases hn'
  next token' rest' hn' =>
  obtain ⟨rfl, rfl⟩ := Prod.mk.inj (Except.ok.inj (hn.symm.trans hn'))
  split
  · split <;> next hoperand => rw [hoperand]; rfl
  · rfl

theorem readTerms_agree (hinner : InnerAgrees tokens inner) (terms : Terms)
    (h : Ahead tokens t u) :
    Agree tokens (Same tokens) (readTerms s inner ctx terms t)
      (readTerms s inner ctx terms u) := by
  induction hlength : t.length using Nat.strongRecOn generalizing terms t u with
  | ind n ih =>
  rcases h.starts with ⟨ht, hu⟩ | ⟨c, r, r', token, rest, rest', ht, hu, hn, hn', hrest⟩
  · rw [readTerms_end terms ht, readTerms_end terms hu]
    exact .error (h.nil ht hu)
  have hcons := h.cons ht hu
  by_cases hstop : isStop c = true
  · rw [readTerms_at_stop terms ht hstop, readTerms_at_stop terms hu hstop]
    split
    · exact .ok ⟨rfl, hcons⟩
    · exact .error hcons
  have hstop : isStop c = false := by simpa using hstop
  rw [readTerms_step terms ht hstop hn, readTerms_step terms hu hstop hn']
  split
  · refine (readOperand_agree hinner _ hrest).bind ?_
    rintro ⟨⟨sign, value⟩, after⟩ ⟨_, after'⟩ hoperand ⟨rfl, hafter⟩
    refine ih _ ?_ _ hafter rfl
    have hshorter := (Shorter.of_next hn).trans_suffix (ht ▸ Text.trimStart_suffix t)
    exact hlength ▸ ((readOperand_shorter hoperand).trans hshorter).2
  split
  · split
    · exact .error hrest
    refine (readBranches_agree hinner hrest).bind ?_
    rintro ⟨⟨yes, no⟩, _⟩ ⟨_, _⟩ - ⟨rfl, hafter⟩
    exact .ok ⟨rfl, hafter⟩
  · exact .error hrest

theorem readExpr_agree (hinner : InnerAgrees tokens inner) (ctx : Context)
    (h : Ahead tokens t u) :
    Agree tokens (Same tokens) (readExpr s inner ctx t) (readExpr s inner ctx u) := by
  refine (readOperand_agree hinner none h).bind ?_
  rintro ⟨⟨sign, value⟩, rest⟩ ⟨_, rest'⟩ - ⟨rfl, hrest⟩
  exact readTerms_agree hinner _ hrest

/-- **Every level agrees with itself**, by induction on the levels below it. -/
theorem innerReader_agrees (tokens : List Token) (s : Scope) (n : Nat) :
    InnerAgrees tokens (innerReader s n) := by
  induction n with
  | zero => exact nofun
  | succ n ih =>
    rintro reader ⟨⟩ ctx t u h
    exact readExpr_agree ih ctx h

end Readers

/-! ## A whole tag -/

/-- **A place in a text**: `left` are the visible tokens from there to the end of the text. -/
structure StandsBefore (t rest : Text) (left : List Token) : Prop where
  suffix : rest <:+ t
  lexes : ∃ tokens, Lexes rest tokens ∧ Token.visible tokens = left

/-- **An expression is its tokens.**  Of two texts that differ in their blanks only, both are read
as the same tree, hence as the same code, or both are refused with the same fault, hence with the
same code and message; either way the reader stops before the same one of their tokens. -/
theorem readTag_spacing (r : Registry) (blocks : List Block) {t u : Text} {a b : List Token}
    (ht : Lexes t a) (hu : Lexes u b) (hvisible : Token.visible a = Token.visible b) :
    ∃ left rest rest', left <:+ Token.visible a ∧
      StandsBefore t rest left ∧ StandsBefore u rest' left ∧
      ((∃ e, readTag ⟨r, Block.loops blocks⟩ t = .ok (e, rest) ∧
          readTag ⟨r, Block.loops blocks⟩ u = .ok (e, rest')) ∨
        ∃ fault, readTag ⟨r, Block.loops blocks⟩ t = .error ⟨fault, rest⟩ ∧
          readTag ⟨r, Block.loops blocks⟩ u = .error ⟨fault, rest'⟩) := by
  have hahead : Ahead (Token.visible a) t u :=
    ⟨_, List.suffix_refl _, ht.reads, hvisible ▸ hu.reads⟩
  have hagree : Agree (Token.visible a) (Same (Token.visible a))
      (readTag ⟨r, Block.loops blocks⟩ t) (readTag ⟨r, Block.loops blocks⟩ u) :=
    readExpr_agree (innerReader_agrees _ _ maxNesting) .tag hahead
  generalize hx : readTag _ t = x at hagree ⊢
  generalize hy : readTag _ u = y at hagree ⊢
  cases hagree with
  | @ok found found' hsame =>
    obtain ⟨e, rest⟩ := found
    obtain ⟨_, rest'⟩ := found'
    obtain ⟨rfl, left, hleft, hrest, hrest'⟩ := hsame
    exact ⟨left, rest, rest', hleft, ⟨(readExpr_shorter hx).1, hrest.lexes⟩,
      ⟨(readExpr_shorter hy).1, hrest'.lexes⟩, .inl ⟨e, rfl, rfl⟩⟩
  | @error fault rest rest' hsame =>
    obtain ⟨left, hleft, hrest, hrest'⟩ := hsame
    exact ⟨left, rest, rest', hleft, ⟨(readTag_stopsIn _ t _ hx).1, hrest.lexes⟩,
      ⟨(readTag_stopsIn _ u _ hy).1, hrest'.lexes⟩, .inr ⟨fault, rfl, rfl⟩⟩

/-- A sum, with and without blanks. -/
theorem readTag_spacing_sum : ∃ e rest rest' left,
    readTag ⟨.standard, 0⟩ "a+b]" = .ok (e, rest) ∧
    readTag ⟨.standard, 0⟩ " a\n +b ]" = .ok (e, rest') ∧
    StandsBefore "a+b]" rest left ∧ StandsBefore " a\n +b ]" rest' left := by
  have ht : Lexes "a+b]" [⟨.name, "a"⟩, ⟨.plus, "+"⟩, ⟨.name, "b"⟩, ⟨.closing .square, "]"⟩] :=
    .token rfl (.token rfl (.token rfl (.token rfl .done)))
  have hu : Lexes " a\n +b ]" [⟨.space, " "⟩, ⟨.name, "a"⟩, ⟨.space, "\n "⟩, ⟨.plus, "+"⟩,
      ⟨.name, "b"⟩, ⟨.space, " "⟩, ⟨.closing .square, "]"⟩] :=
    .token rfl (.token rfl (.token rfl (.token rfl (.token rfl (.token rfl (.token rfl .done))))))
  obtain ⟨left, rest, rest', -, hstands, hstands', ⟨e, he, he'⟩ | ⟨fault, hfault, -⟩⟩ :=
    readTag_spacing .standard [] ht hu (by decide)
  · exact ⟨e, rest, rest', left, he, he', hstands, hstands'⟩
  · have hok : (readTag ⟨.standard, 0⟩ "a+b]").toBool = true := by decide +kernel
    rw [show readTag ⟨.standard, 0⟩ "a+b]" = _ from hfault] at hok
    cases hok

end Stencil
