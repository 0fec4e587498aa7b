import Stencil.Proofs.Artifact.Header
import Stencil.Proofs.Host.Scanner
import Stencil.Proofs.Template.Segments

/-!
# Proofs/Artifact/Comment — the header as a host comment

    <?php /* Tplus version date time path size */ ?>
          └─────────────── comment ─────────────┘

The host passes over the header as over one comment, which ends at the first `*/`.  Nothing in the
header holds one but the path, in which it stands as it is: a directory whose name ends in a star is
enough.  So the comment ends where the header does if the path holds none, and else in the path,
with what follows there read as code (`Header.stamp_comment_iff`).
-/

namespace Stencil

/-! ## The end of a comment -/

/-- How the host ends a comment. -/
def commentClose : Text := ['*', '/']

/-- **The first comment end** stands behind a front that holds none. -/
theorem breakOn?_commentClose_iff {front rest : Text} :
    Text.breakOn? commentClose (front ++ commentClose ++ rest) = some (front, rest) ↔
      ¬ commentClose <:+: front := by
  constructor
  · rintro h ⟨x, y, hfront⟩
    refine not_prefix_of_breakOn? h (x := x) (y := commentClose ++ y) ?_ (by simp [commentClose]) ?_
    · rw [← hfront, List.append_assoc]
    · rw [List.append_assoc, List.append_assoc]
      exact List.prefix_append _ _
  · intro h
    induction front with
    | nil => rfl
    | cons c front ih =>
      have hstep : ¬ commentClose.isPrefixOf (c :: (front ++ commentClose ++ rest)) = true := by
        rw [List.isPrefixOf_iff_prefix]
        intro hp
        -- A star in front of the comment end does not end the comment.
        cases front with
        | nil => simp [commentClose] at hp
        | cons d front =>
          refine h (List.IsPrefix.isInfix ?_)
          simpa [commentClose] using hp
      rw [List.cons_append, List.cons_append, Text.breakOn?, if_neg hstep,
        ih fun hfront => h (List.infix_cons hfront)]
      rfl

namespace Script

/-- **A comment ends at the first comment end.** -/
theorem events_block_of_breakOn? {t front rest : Text}
    (h : Text.breakOn? commentClose t = some (front, rest)) :
    events .block t = .endsBlock rest :: events .code rest := by
  fun_induction Text.breakOn? commentClose t generalizing front with
  | case1 hpat => cases hpat
  | case2 => cases h
  | case3 c t hpat =>
    obtain ⟨back, hback⟩ := List.isPrefixOf_iff_prefix.1 hpat
    cases h
    rw [← hback]
    rfl
  | case4 c t hpat ih =>
    obtain ⟨⟨f, b⟩, hb, he⟩ := Option.map_eq_some_iff.1 h
    cases he
    rw [events_block ?_, ih hb]
    rintro rfl hslash
    obtain ⟨u, rfl⟩ := List.head?_eq_some_iff.1 hslash
    exact hpat rfl

/-- **A comment ends at the end it was given** if there is none before. -/
theorem events_block_eq_iff {front rest : Text} :
    events .block (front ++ commentClose ++ rest) = .endsBlock rest :: events .code rest ↔
      ¬ commentClose <:+: front := by
  have hbreakOn : _ ↔ ¬ commentClose <:+: front := @breakOn?_commentClose_iff front rest
  rw [← hbreakOn]
  refine ⟨fun h => ?_, events_block_of_breakOn?⟩
  cases hbreak : Text.breakOn? commentClose (front ++ commentClose ++ rest) with
  | none => exact absurd ⟨front, rest, rfl⟩ (not_infix_of_breakOn?_none (by decide) hbreak)
  | some parts =>
    obtain ⟨front', rest'⟩ := parts
    rw [events_block_of_breakOn? hbreak] at h
    obtain rfl : rest' = rest := Event.endsBlock.inj (List.cons.inj h).1
    have hfront := breakOn?_append hbreak
    rw [List.append_cancel_right_eq, List.append_cancel_right_eq] at hfront
    rw [hfront]

end Script

namespace Header

/-- What stands in an artifact in front of the comment end of its header. -/
def beforeClose (h : Header) (total : Nat) : Text :=
  h.stem ++ Text.padZeros sizeWidth (Text.decimal total) ++ [' ']

/-- What stands in an artifact behind the comment end of its header. -/
def afterClose (body : Text) : Text := [' ', '?', '>', '\n'] ++ body

/-- The first line of an artifact, at the comment end of its header. -/
theorem firstLine_eq_close (h : Header) (total : Nat) :
    h.firstLine total = h.beforeClose total ++ commentClose ++ [' ', '?', '>'] := by
  have hclosing : closing = [' '] ++ commentClose ++ [' ', '?', '>'] := by decide
  rw [firstLine, hclosing, beforeClose]
  simp only [List.append_assoc]

theorem artifact_eq_close (h : Header) (total : Nat) (body : Text) :
    h.firstLine total ++ '\n' :: body = h.beforeClose total ++ commentClose ++ afterClose body := by
  rw [firstLine_eq_close, afterClose, List.append_assoc]
  rfl

/-- What stands in the comment of a header. -/
def remark (version path : Text) (time : Instant) (zone : Zone) (total : Nat) : Text :=
  ['T', 'p', 'l', 'u', 's'] ++ ' ' :: (version ++ ' ' ::
    ((Date.ofDay (zone.second time / 86400 + Date.epochDay)).text ++ ' ' ::
      (Instant.clock (zone.second time) ++ ' ' :: (path ++ ' ' ::
        (Text.padZeros sizeWidth (Text.decimal total) ++ ' ' :: [])))))

theorem beforeClose_make (version path : Text) (time : Instant) (zone : Zone) (total : Nat) :
    (make version time path zone).beforeClose total =
      ['<', '?', 'p', 'h', 'p'] ++ ' ' ::
        (['/', '*'] ++ ' ' :: remark version path time zone total) := by
  have hopening : opening = ['<', '?', 'p', 'h', 'p'] ++ ' ' :: (['/', '*'] ++ ' ' ::
      (['T', 'p', 'l', 'u', 's'] ++ [' '])) := by decide
  have hblank : (" " : Text) = [' '] := by decide
  rw [beforeClose, make, hopening, hblank, Zone.text, Instant.text_eq, remark, Zone.second]
  simp only [List.append_assoc, List.cons_append, List.nil_append]

/-- **In the remark of a header only the path can end a comment.** -/
theorem commentClose_infix_remark_iff {version : Text} (hversion : ¬ commentClose <:+: version)
    (path : Text) (time : Instant) (zone : Zone) (total : Nat) :
    commentClose <:+: remark version path time zone total ↔ commentClose <:+: path := by
  have hne : commentClose ≠ [] := by decide
  have hblank : ' ' ∉ commentClose := by decide
  have hstar : '*' ∈ commentClose := by decide
  have hname : ¬ commentClose <:+: ['T', 'p', 'l', 'u', 's'] := by decide
  have hdate := Text.not_infix_of_not_mem hstar (Date.not_mem_text (c := '*') rfl (by decide)
    (by decide) (Date.ofDay (zone.second time / 86400 + Date.epochDay)))
  have hclock := Text.not_infix_of_not_mem hstar
    (Instant.not_mem_clock (c := '*') rfl (by decide) (zone.second time))
  have hsize : ¬ commentClose <:+: Text.padZeros sizeWidth (Text.decimal total) :=
    Text.not_infix_of_not_mem hstar (Text.not_mem_padZeros rfl)
  have hnil : ¬ commentClose <:+: [] := by decide
  simp only [remark, Text.infix_append_cons_iff hne hblank, hname, hversion, hdate, hclock, hsize,
    hnil, false_or, or_false]

theorem commentClose_infix_beforeClose_iff {version : Text}
    (hversion : ¬ commentClose <:+: version) (path : Text) (time : Instant) (zone : Zone)
    (total : Nat) :
    commentClose <:+: (make version time path zone).beforeClose total ↔
      commentClose <:+: path := by
  have hne : commentClose ≠ [] := by decide
  have hblank : ' ' ∉ commentClose := by decide
  have hopening : ¬ commentClose <:+: ['<', '?', 'p', 'h', 'p'] := by decide
  have hcomment : ¬ commentClose <:+: ['/', '*'] := by decide
  rw [beforeClose_make]
  simp only [Text.infix_append_cons_iff hne hblank, hopening, hcomment, false_or]
  exact commentClose_infix_remark_iff hversion path time zone total

/-- **The host reads a header** as a comment that starts with it. -/
theorem events_make (version path : Text) (time : Instant) (zone : Zone) (total : Nat)
    (rest : Text) :
    let artifact := (make version time path zone).beforeClose total ++ commentClose ++ rest
    Script.events .code (artifact.drop 5) = .startsBlock (artifact.drop 6) ::
      Script.events .block
        (' ' :: remark version path time zone total ++ commentClose ++ rest) := by
  intro artifact
  have hartifact : artifact = '<' :: '?' :: 'p' :: 'h' :: 'p' :: ' ' :: '/' :: '*' ::
      (' ' :: remark version path time zone total ++ commentClose ++ rest) := by
    change _ ++ commentClose ++ rest = _
    rw [beforeClose_make]
    rfl
  rw [hartifact]
  change Script.events .code (' ' :: '/' :: '*' :: _) = _
  rw [Script.events_inert (by decide), Script.events]
  rfl

/-- **Where the comment of a header ends.**  An artifact is its header's first line, which ends in
the comment end ` */ ?>` if version and path are on one line, and the body.  That comment end is the
first one, and the host reads the header as this one comment and nothing else, exactly if the path
holds no comment end; the version holds none. -/
theorem stamp_comment_iff {version path body : Text} {time : Instant} {zone : Zone}
    (hversion : ¬ commentClose <:+: version)
    (hfits : (make version time path zone).totalSize body ≤ maxSize) :
    ∃ artifact front rest, (make version time path zone).stamp body = .ok artifact ∧
      artifact = front ++ commentClose ++ rest ∧ rest = [' ', '?', '>', '\n'] ++ body ∧
      front = (make version time path zone).stem ++
        Text.padZeros sizeWidth (Text.decimal artifact.size) ++ [' '] ∧
      ('\n' ∉ version → '\n' ∉ path →
        (Text.lines artifact).head? = some (front ++ commentClose ++ [' ', '?', '>'])) ∧
      (Text.breakOn? commentClose artifact = some (front, rest) ↔ ¬ commentClose <:+: path) ∧
      (Script.events .code (artifact.drop 5) =
        [.startsBlock (artifact.drop 6), .endsBlock rest, .finish ('\n' :: body)] ↔
          ¬ commentClose <:+: path) := by
  have hstamp := stamp_eq_ok_iff.2 ⟨hfits, rfl⟩
  have hsize := size_of_stamp hstamp
  generalize (make version time path zone).totalSize body = total at hstamp hsize
  have hclose := artifact_eq_close (make version time path zone) total body
  refine ⟨_, _, _, hstamp, hclose, rfl, ?_, fun hv hp => ?_, ?_, ?_⟩
  · rw [hsize, beforeClose]
  · rw [lines_firstLine hv hp, ← firstLine_eq_close]
    rfl
  · rw [hclose, breakOn?_commentClose_iff, commentClose_infix_beforeClose_iff hversion]
  · have hafter : [Script.Event.endsBlock (afterClose body), .finish ('\n' :: body)] =
        .endsBlock (afterClose body) :: Script.events .code (afterClose body) := rfl
    have hblank : ¬ commentClose <+: ' ' :: remark version path time zone total := by
      simp [commentClose]
    rw [hclose, events_make, List.cons_inj_right, hafter, Script.events_block_eq_iff,
      List.infix_cons_iff, or_iff_right hblank, commentClose_infix_remark_iff hversion]

/-- A path with stars and slashes that do not meet, and a comment end in the body. -/
theorem stamp_comment_iff_stars :
    let header := make "1.1.2" 0 "/*a* /b*"
    ¬ commentClose <:+: ("1.1.2" : Text) ∧ header.totalSize "*/" ≤ maxSize ∧
      ¬ commentClose <:+: ("/*a* /b*" : Text) ∧
      ∃ artifact front rest, header.stamp "*/" = .ok artifact ∧ rest = " ?>\n*/".toList ∧
        Text.breakOn? commentClose artifact = some (front, rest) ∧
        Script.events .code (artifact.drop 5) =
          [.startsBlock (artifact.drop 6), .endsBlock rest, .finish "\n*/".toList] := by
  have hversion : ¬ commentClose <:+: ("1.1.2" : Text) := by decide
  have hfits : (make "1.1.2" 0 "/*a* /b*").totalSize "*/" ≤ maxSize := by decide +kernel
  have hpath : ¬ commentClose <:+: ("/*a* /b*" : Text) := by decide +kernel
  have hafter : [' ', '?', '>', '\n'] ++ ("*/" : Text) = " ?>\n*/".toList := rfl
  have hbody : '\n' :: ("*/" : Text) = "\n*/".toList := rfl
  obtain ⟨artifact, front, rest, hstamp, -, hrest, -, -, hfirst, hhost⟩ :=
    stamp_comment_iff hversion hfits
  rw [hbody] at hhost
  exact ⟨hversion, hfits, hpath, artifact, front, rest, hstamp, hrest.trans hafter,
    hfirst.2 hpath, hhost.2 hpath⟩

/-- **A path that ends the comment of its header.**  What follows the star of the directory `a*` is
read as code. -/
theorem stamp_comment_in_path :
    let header := make "1.1.2" 0 "/a*/b"
    ¬ commentClose <:+: ("1.1.2" : Text) ∧ '\n' ∉ ("/a*/b" : Text) ∧
      header.totalSize "x" ≤ maxSize ∧
      ∃ artifact, header.stamp "x" = .ok artifact ∧
        artifact = "<?php /* Tplus 1.1.2 1970-01-01 00:00:00 /a*/b 000000064 */ ?>\nx".toList ∧
        Text.breakOn? commentClose artifact =
          some ("<?php /* Tplus 1.1.2 1970-01-01 00:00:00 /a".toList,
            "b 000000064 */ ?>\nx".toList) ∧
        Script.events .code (artifact.drop 5) = [.startsBlock (artifact.drop 6),
          .endsBlock "b 000000064 */ ?>\nx".toList, .finish "\nx".toList] := by
  refine ⟨by decide, by decide, by decide +kernel, _, ?_, rfl, by decide +kernel,
    by decide +kernel⟩
  exact stamp_eq_ok_iff.2 ⟨by decide +kernel, by decide +kernel⟩

end Header

end Stencil
