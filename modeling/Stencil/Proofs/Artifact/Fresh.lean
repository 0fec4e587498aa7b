import Stencil.Proofs.Artifact.Header

/-!
# Proofs/Artifact/Fresh — which files a header takes for its artifact

    stem │ nine bytes │ anything

A header accepts a file by its front alone: its stem, and behind it a number that is the length of
the file.  So of two files of which one goes on with the other it accepts at most one
(`Header.eq_of_accepts`), and an artifact that was cut or continued is never fresh
(`Header.stamp_torn`).

The nine bytes are looked for behind the stem of the header, not in front of the end of the first
line.  In the artifact of another path the look goes wrong in two ways (`Header.Mistaken`):

    path  = other ␣ number …          the path goes on behind the other one
    other = path ␣ size */ ?> ⏎ …     the other path goes on like the file, up to a number in the body

and in no other (`Header.accepts_stamp_iff`).  Neither happens to paths without blanks and line feeds
(`Header.not_mistaken`).
-/

namespace Stencil

/-! ## Words and numbers -/

namespace Text

/-- A word without the separator lies in front of every cut at the separator. -/
theorem exists_append_of_not_mem {c : Char} {word s m t : Text} (hword : c ∉ word)
    (h : word ++ s = m ++ c :: t) : ∃ m', m = word ++ m' ∧ s = m' ++ c :: t := by
  rcases List.append_eq_append_iff.1 h with hbehind | ⟨back, rfl, hback⟩
  · exact hbehind
  · cases back with
    | nil => exact ⟨[], by rw [List.append_nil, List.append_nil], hback.symm⟩
    | cons d back =>
      rw [(List.cons.inj hback).1] at hword
      exact absurd (List.mem_append_right _ List.mem_cons_self) hword

/-- A number is made of digits and a sign. -/
theorem isDigit_of_number64? {t : Text} {n : Nat} (h : number64? t = some n) {c : Char}
    (hc : c ∈ t) : isDigit c = true ∨ c = '+' := by
  have hdigits : ∀ digits : Text, (if digits.isEmpty || !digits.all isDigit then none
      else if digitsValue digits < Nat.pow 2 64 then some (digitsValue digits) else none) =
        some n → ∀ c ∈ digits, isDigit c = true := by
    intro digits hread
    split at hread
    · cases hread
    · next hbad =>
      rw [Bool.or_eq_true, not_or, Bool.not_eq_true', Bool.not_eq_false] at hbad
      exact List.all_eq_true.1 hbad.2
  unfold number64? at h
  split at h
  · next rest =>
    rcases List.mem_cons.1 hc with rfl | hc
    · exact .inr rfl
    · exact .inl (hdigits rest h c hc)
  · exact .inl (hdigits t h c hc)

/-- Each character of a number is one byte. -/
theorem size_of_number64? {t : Text} {n : Nat} (h : number64? t = some n) : t.size = t.length := by
  refine size_eq_length fun c hc => ?_
  rcases isDigit_of_number64? h hc with hdigit | rfl
  · exact utf8Size_of_isDigit hdigit
  · decide

end Text

namespace Header

/-! ## Torn artifacts -/

/-- **Of two files of which one goes on with the other, a header accepts at most one.** -/
theorem eq_of_accepts {h : Header} {file file' : Bytes} (hgrown : file <+: file')
    (hfile : h.accepts (file.take h.checkLength) file.length = true)
    (hfile' : h.accepts (file'.take h.checkLength) file'.length = true) : file = file' := by
  obtain ⟨field, rest, hfront, hwidth, hnumber⟩ := accepts_take_iff.1 hfile
  obtain ⟨field', rest', hfront', hwidth', hnumber'⟩ := accepts_take_iff.1 hfile'
  obtain ⟨more, rfl⟩ := hgrown
  -- Both numbers are the nine bytes behind the stem.
  have hbytes : Text.utf8 field ++ (rest ++ more) = Text.utf8 field' ++ rest' := by
    rw [hfront] at hfront'
    simpa only [List.append_assoc, List.append_cancel_left_eq] using hfront'
  have hfield : Text.utf8 field = Text.utf8 field' :=
    (List.append_inj hbytes (by rw [Text.length_utf8, Text.length_utf8, hwidth, hwidth'])).1
  have hsame : field = field' := by
    rw [← Option.some.injEq, ← Text.ofUtf8?_utf8, hfield, Text.ofUtf8?_utf8]
  have hlength : file.length = (file ++ more).length := by
    rw [← Option.some.injEq, ← hnumber, hsame, hnumber']
  exact (List.prefix_append file more).eq_of_length hlength

/-- **An artifact is whole or stale.**  A body is refused, with the code of a failed file access,
only if its artifact is larger than the largest size that can be declared.  Else the artifact
declares its size in nine digits behind the stem, the header accepts it, and it accepts nothing that
is left of the artifact when it is cut, nor the artifact with something behind it. -/
theorem stamp_torn (h : Header) (body : Text) :
    ((∃ f, h.stamp body = .error f ∧ f.diagnostic.code.label = "E5008") ↔
      999999999 < h.totalSize body) ∧
    (h.totalSize body ≤ 999999999 → ∃ artifact digits, h.stamp body = .ok artifact ∧
      artifact = h.stem ++ digits ++ closing ++ '\n' :: body ∧
      digits.length = 9 ∧ (∀ c ∈ digits, Text.isDigit c = true) ∧
      Text.digitsValue digits = (Text.utf8 artifact).length ∧
      h.accepts ((Text.utf8 artifact).take h.checkLength) (Text.utf8 artifact).length = true ∧
      ∀ file : Bytes, file ≠ Text.utf8 artifact →
        (file <+: Text.utf8 artifact ∨ Text.utf8 artifact <+: file) →
        h.accepts (file.take h.checkLength) file.length = false) := by
  constructor
  · constructor
    · rintro ⟨f, herror, -⟩
      refine Nat.lt_of_not_le fun hfits => ?_
      cases herror.symm.trans (stamp_eq_ok_iff.2 ⟨hfits, rfl⟩)
    · intro hlarge
      exact ⟨.tooLarge (h.totalSize body), if_pos hlarge, rfl⟩
  · intro hfits
    have hstamp := stamp_eq_ok_iff.2 ⟨hfits, rfl⟩
    have haccepts := accepts_of_stamp hstamp
    have hdigits : ∀ c ∈ Text.padZeros sizeWidth (Text.decimal (h.totalSize body)),
        Text.isDigit c = true := fun c hc => Text.isDigit_of_mem_padZeros hc
    refine ⟨_, _, hstamp, rfl, ?_, hdigits, ?_, haccepts, fun file hne htorn => ?_⟩
    · rw [← Text.size_eq_length fun c hc => Text.utf8Size_of_isDigit (hdigits c hc)]
      exact size_total hfits
    · rw [Text.length_utf8, size_of_stamp hstamp]
      exact Text.ofDigitChars_padZeros _ _
    · refine Bool.eq_false_iff.2 fun hfile => ?_
      rcases htorn with hcut | hgrown
      · exact hne (eq_of_accepts hcut hfile haccepts)
      · exact hne (eq_of_accepts hgrown haccepts hfile).symm

/-- Characters of two and of three bytes, in the path and in the body. -/
theorem stamp_torn_wide_text :
    let header := make "1.1.2" 0 "/é.html"
    header.totalSize "€\n" ≤ 999999999 ∧ ∃ artifact, header.stamp "€\n" = .ok artifact ∧
      artifact.length + 3 = (Text.utf8 artifact).length ∧
      ∀ file : Bytes, file ≠ Text.utf8 artifact →
        (file <+: Text.utf8 artifact ∨ Text.utf8 artifact <+: file) →
        header.accepts (file.take header.checkLength) file.length = false := by
  intro header
  have hfits : header.totalSize "€\n" ≤ 999999999 := by decide +kernel
  obtain ⟨artifact, digits, hstamp, hartifact, hwidth, -, -, -, htorn⟩ :=
    (stamp_torn header "€\n").2 hfits
  have htotal : header.totalSize "€\n" = header.stem.length + 1 + 9 + (closing.length + 3 + 2) := by
    decide +kernel
  refine ⟨hfits, artifact, hstamp, ?_, htorn⟩
  rw [Text.length_utf8, size_of_stamp hstamp, htotal, hartifact]
  simp only [List.length_append, List.length_cons, hwidth]
  have hbody : ("€\n" : Text).length = 2 := by decide
  omega

/-! ## Artifacts of other templates -/

/-- **Whether a text starts like a size**: with nine characters that write this number. -/
def Declares (total : Nat) (t : Text) : Prop :=
  sizeWidth ≤ t.length ∧ Text.number64? (t.take sizeWidth) = some total

instance (total : Nat) (t : Text) : Decidable (Declares total t) :=
  inferInstanceAs (Decidable (_ ∧ _))

/-- **A text is accepted as a file** if it goes on behind the stem with its size. -/
theorem accepts_utf8_iff {h : Header} {t : Text} :
    h.accepts ((Text.utf8 t).take h.checkLength) (Text.utf8 t).length = true ↔
      ∃ rest, t = h.stem ++ rest ∧ Declares t.size rest := by
  rw [accepts_take_iff, Text.length_utf8]
  constructor
  · rintro ⟨field, rest, hfile, hwidth, hnumber⟩
    rw [Text.size_of_number64? hnumber] at hwidth
    have hstart : h.stem ++ field <+: t := by
      refine Text.prefix_of_utf8 ⟨rest, ?_⟩
      rw [hfile, Text.utf8_append]
    obtain ⟨more, hmore⟩ := hstart
    refine ⟨field ++ more, by rw [← hmore, List.append_assoc], ?_, ?_⟩
    · rw [List.length_append]
      omega
    · rwa [List.take_left' hwidth]
  · rintro ⟨rest, hfile, hlength, hnumber⟩
    refine ⟨rest.take sizeWidth, Text.utf8 (rest.drop sizeWidth), ?_, ?_, hnumber⟩
    · rw [← Text.utf8_append, ← Text.utf8_append, List.append_assoc, List.take_append_drop, ← hfile]
    · rw [Text.size_of_number64? hnumber, List.length_take, Nat.min_eq_left hlength]

/-- A size starts with a digit or a sign. -/
theorem not_declares_cons {c : Char} (hdigit : Text.isDigit c = false) (hplus : c ≠ '+')
    (total : Nat) (t : Text) : ¬ Declares total (c :: t) := by
  rintro ⟨-, hnumber⟩
  have hmem : c ∈ (c :: t).take sizeWidth := List.mem_cons_self
  rcases Text.isDigit_of_number64? hnumber hmem with h | h
  · rw [hdigit] at h
    cases h
  · exact hplus h

/-- A size ends in front of a blank. -/
theorem declares_append_blank {total : Nat} {t s : Text} :
    Declares total (t ++ ' ' :: s) ↔ Declares total t := by
  have hshort : Declares total (t ++ ' ' :: s) → sizeWidth ≤ t.length := by
    rintro ⟨-, hnumber⟩
    refine Nat.le_of_not_lt fun hlt => ?_
    have hmem : ' ' ∈ (t ++ ' ' :: s).take sizeWidth := by
      obtain ⟨k, hk⟩ := Nat.exists_eq_add_of_lt hlt
      rw [hk, Nat.add_assoc, List.take_length_add_append]
      exact List.mem_append_right _ List.mem_cons_self
    rcases Text.isDigit_of_number64? hnumber hmem with h | h <;> cases h
  have htake : sizeWidth ≤ t.length → (t ++ ' ' :: s).take sizeWidth = t.take sizeWidth :=
    fun h => List.take_append_of_le_length h
  constructor
  · intro h
    exact ⟨hshort h, htake (hshort h) ▸ h.2⟩
  · rintro ⟨hlength, hnumber⟩
    refine ⟨?_, by rwa [htake hlength]⟩
    rw [List.length_append]
    omega

/-- What stands in an artifact behind the path of its template and a blank. -/
def behindPath (total : Nat) (body : Text) : Text :=
  Text.padZeros sizeWidth (Text.decimal total) ++ closing ++ '\n' :: body

/-- Behind the size stand two more words, and the last one ends the line. -/
theorem behindPath_eq (total : Nat) (body : Text) :
    behindPath total body = Text.padZeros sizeWidth (Text.decimal total) ++ ' ' ::
      (['*', '/'] ++ ' ' :: (['?', '>', '\n'] ++ body)) := by
  have hclosing : closing = [' ', '*', '/', ' ', '?', '>'] := by decide
  rw [behindPath, hclosing, List.append_assoc]
  rfl

/-- **Where one path is mistaken for another** in an artifact: the path goes on behind the other one
as a header does, or the other path goes on like the artifact until the body does so. -/
def Mistaken (total : Nat) (body path other : Text) : Prop :=
  (∃ more, path = other ++ ' ' :: more ∧ Declares total more) ∨
    ∃ front back, body = front ++ ' ' :: back ∧ other = path ++ ' ' :: behindPath total front ∧
      Declares total back

theorem Mistaken.ne {total : Nat} {body path other : Text} (h : Mistaken total body path other) :
    path ≠ other := by
  rintro rfl
  rcases h with ⟨more, hmore, -⟩ | ⟨front, -, -, hfront, -⟩
  · simpa using congrArg List.length hmore
  · simpa using congrArg List.length hfront

/-- **A path without blanks is mistaken for no path without line feeds.** -/
theorem not_mistaken {total : Nat} {body path other : Text} (hpath : ' ' ∉ path)
    (hother : '\n' ∉ other) : ¬ Mistaken total body path other := by
  rintro (⟨more, rfl, -⟩ | ⟨front, back, -, rfl, -⟩)
  · exact hpath (List.mem_append_right _ List.mem_cons_self)
  · refine hother (List.mem_append_right _ (List.mem_cons_of_mem _ ?_))
    exact List.mem_append_right _ List.mem_cons_self

/-- A blank behind a word is no place for a size, if none follows it. -/
theorem eq_of_blank {total : Nat} {word s m t : Text} (hword : ' ' ∉ word)
    (hs : ¬ Declares total s) (ht : Declares total t) (h : word ++ ' ' :: s = m ++ ' ' :: t) :
    ∃ m', m = word ++ ' ' :: m' ∧ s = m' ++ ' ' :: t := by
  rcases Text.append_cons_eq_iff.1 h with ⟨-, rfl⟩ | ⟨m', rfl, -⟩ | hlater
  · exact absurd ht hs
  · exact absurd (List.mem_append_right _ List.mem_cons_self) hword
  · exact hlater

/-- **Behind the path only the body holds a place for a size**, but for the one of the header. -/
theorem eq_of_behindPath {total : Nat} {body m t : Text} (ht : Declares total t)
    (h : behindPath total body = m ++ ' ' :: t) :
    ∃ front, m = behindPath total front ∧ body = front ++ ' ' :: t := by
  have hblank : ' ' ∉ Text.padZeros sizeWidth (Text.decimal total) := Text.not_mem_padZeros rfl
  rw [behindPath_eq] at h
  obtain ⟨m, rfl, hend⟩ := eq_of_blank hblank
    (not_declares_cons rfl (by decide : '*' ≠ '+') _ _) ht h
  obtain ⟨m, rfl, hfeed⟩ := eq_of_blank (by decide : ' ' ∉ ['*', '/'])
    (not_declares_cons rfl (by decide : '?' ≠ '+') _ _) ht hend
  obtain ⟨front, rfl, hbody⟩ := Text.exists_append_of_not_mem
    (by decide : ' ' ∉ ['?', '>', '\n']) hfeed
  exact ⟨front, (behindPath_eq total front).symm, hbody⟩

/-- An artifact that fits declares its size behind the path. -/
theorem declares_behindPath {total : Nat} (htotal : total ≤ maxSize) (body : Text) :
    Declares total (behindPath total body) := by
  have hnumber := number64?_total htotal
  have hwidth := size_total htotal
  rw [Text.size_of_number64? hnumber] at hwidth
  rw [behindPath, List.append_assoc]
  refine ⟨?_, by rwa [List.take_left' hwidth]⟩
  rw [List.length_append]
  omega

/-- **The size is found behind another path** if it is the same path or mistaken for it. -/
theorem exists_declares_iff {total : Nat} (htotal : total ≤ maxSize) {body path other : Text} :
    (∃ rest, path ++ ' ' :: behindPath total body = other ++ ' ' :: rest ∧ Declares total rest) ↔
      path = other ∨ Mistaken total body path other := by
  constructor
  · rintro ⟨rest, hrest, hdeclares⟩
    rcases Text.append_cons_eq_iff.1 hrest with ⟨hpath, -⟩ | ⟨more, hpath, rfl⟩ | ⟨m, hother, hm⟩
    · exact .inl hpath
    · exact .inr (.inl ⟨more, hpath, declares_append_blank.1 hdeclares⟩)
    · obtain ⟨front, rfl, hbody⟩ := eq_of_behindPath hdeclares hm
      exact .inr (.inr ⟨front, rest, hbody, hother, hdeclares⟩)
  · rintro (rfl | ⟨more, rfl, hdeclares⟩ | ⟨front, back, rfl, rfl, hdeclares⟩)
    · exact ⟨_, rfl, declares_behindPath htotal body⟩
    · refine ⟨more ++ ' ' :: behindPath total body, ?_, declares_append_blank.2 hdeclares⟩
      rw [List.append_assoc, List.cons_append]
    · refine ⟨back, ?_, hdeclares⟩
      simp [behindPath]

variable {version path other body artifact : Text} {i j : Instant} {zone zone' : Zone}

/-- **Which artifacts another header accepts**, if the versions are the same: those of the same
second by the clocks, with the same path or one that is mistaken for it. -/
theorem accepts_stamp_iff (hstamp : (make version i path zone).stamp body = .ok artifact) :
    (make version j other zone').accepts
        ((Text.utf8 artifact).take (make version j other zone').checkLength)
        (Text.utf8 artifact).length = true ↔
      zone.second i = zone'.second j ∧
        (path = other ∨ Mistaken artifact.size body path other) := by
  have hsize := size_of_stamp hstamp
  obtain ⟨hfits, hartifact⟩ := stamp_eq_ok_iff.1 hstamp
  rw [← hsize] at hfits hartifact
  have hlayout : artifact = (make version i path zone).stem ++ behindPath artifact.size body := by
    refine hartifact.trans ?_
    rw [firstLine, behindPath, List.append_assoc, List.append_assoc, List.append_assoc]
  rw [accepts_utf8_iff, ← exists_declares_iff hfits]
  constructor
  · rintro ⟨rest, hrest, hdeclares⟩
    obtain ⟨hsecond, hpaths⟩ := stem_append_eq_iff.1 (hlayout.symm.trans hrest)
    exact ⟨hsecond, rest, hpaths, hdeclares⟩
  · rintro ⟨hsecond, rest, hpaths, hdeclares⟩
    exact ⟨rest, hlayout.trans (stem_append_eq_iff.2 ⟨hsecond, hpaths⟩), hdeclares⟩

/-- **An artifact is fresh for its own template only**, unless the one path is mistaken for the
other and clocks showed the same second for the templates. -/
theorem accepts_own_iff (hstamp : (make version i path zone).stamp body = .ok artifact) :
    ((make version j other zone').accepts
        ((Text.utf8 artifact).take (make version j other zone').checkLength)
        (Text.utf8 artifact).length = true →
      (make version i path zone).stem = (make version j other zone').stem) ↔
      ¬ (zone.second i = zone'.second j ∧ Mistaken artifact.size body path other) := by
  rw [accepts_stamp_iff hstamp, stem_make_inj]
  constructor
  · rintro hown ⟨hsecond, hmistaken⟩
    exact hmistaken.ne (hown ⟨hsecond, .inr hmistaken⟩).2
  · rintro hfree ⟨hsecond, hpath | hmistaken⟩
    · exact ⟨hsecond, hpath⟩
    · exact absurd ⟨hsecond, hmistaken⟩ hfree

/-- A path that goes on behind the other one with a number, which is one short of the size. -/
theorem accepts_own_number_in_path :
    let header := make "1.1.2" 0 "/a 000000069"
    let other := make "1.1.2" 0 "/a"
    ∃ artifact, header.stamp "" = .ok artifact ∧
      ¬ Mistaken artifact.size "" "/a 000000069" "/a" ∧
      (other.accepts ((Text.utf8 artifact).take other.checkLength) (Text.utf8 artifact).length =
        true → header.stem = other.stem) := by
  intro header other
  have htotal : header.totalSize "" = 70 := by decide +kernel
  have hstamp := stamp_eq_ok_iff.2 ⟨Nat.le_trans (Nat.le_of_eq htotal) (by decide), rfl⟩
  have hsize := (size_of_stamp hstamp).trans htotal
  have hfree : ¬ Mistaken 70 "" "/a 000000069" "/a" := by
    rintro (⟨more, hmore, hdeclares⟩ | ⟨front, back, hbody, -, -⟩)
    · have hpath : "/a ".toList ++ "000000069".toList = "/a ".toList ++ more := hmore
      rw [← List.append_cancel_left hpath] at hdeclares
      exact absurd hdeclares (by decide)
    · simpa using congrArg List.length hbody
  rw [← hsize] at hfree
  exact ⟨_, hstamp, hfree, (accepts_own_iff hstamp).2 fun h => hfree h.2⟩

/-- **An artifact that is fresh for another template**: its path goes on behind the other one with
the size of the artifact. -/
theorem accepts_foreign_artifact :
    let header := make "1.1.2" 0 "/a +00000070"
    let other := make "1.1.2" 0 "/a"
    ∃ artifact, header.stamp "" = .ok artifact ∧
      other.accepts ((Text.utf8 artifact).take other.checkLength) (Text.utf8 artifact).length =
        true ∧ header.stem ≠ other.stem := by
  intro header other
  have htotal : header.totalSize "" = 70 := by decide +kernel
  have hstamp := stamp_eq_ok_iff.2 ⟨Nat.le_trans (Nat.le_of_eq htotal) (by decide), rfl⟩
  have hsize := (size_of_stamp hstamp).trans htotal
  have hmistaken : Mistaken 70 "" "/a +00000070" "/a" :=
    .inl ⟨"+00000070", by decide, by decide⟩
  refine ⟨_, hstamp, (accepts_stamp_iff hstamp).2 ⟨rfl, .inr ?_⟩, ?_⟩
  · rw [hsize]
    exact hmistaken
  · rw [ne_eq, stem_make_inj, not_and]
    exact fun _ => hmistaken.ne

end Header

end Stencil
