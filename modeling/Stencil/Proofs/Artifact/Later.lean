import Stencil.Proofs.Artifact.Lockstep

/-!
# Proofs/Artifact/Later — a template ensured on a disk that has grown

    x ──ensure──▸ x'
    │ grows
    y ──ensure──▸ y'      the same verdict, unless something new is in the way

Since a template was ensured, other artifacts may have been stored.  They are in its way in three
cases (`Hinders`): a file where the artifact needs a directory, a directory where the artifact
belongs, or a directory in which the name of the artifact turns out to be too long.  In all others
ensuring the template gives the same verdict and makes the same changes (`Ready.ensure_later`); and
where something hinders it, the artifact is not read, which is the code of nearly every failure
(`Ready.verdict_of_failed`).
-/

namespace Stencil

open Stencil.Path

/-! ## Looking up -/

namespace Disk

/-- **No file has come to a place**: one that is there was there before. -/
def NoNewFile (d d' : Disk) (place : Place) : Prop :=
  ∀ content time mode, d'.at? place = some (.file content time mode) → d'.at? place = d.at? place

/-- **What hinders a look-up on a disk that has grown**, at a place where nothing was before: a file
that names lead beyond, a directory at their end, or one in which the next name is too long. -/
def Hinders (d d' : Disk) (start : Place) (names : List Text) : Prop :=
  ∃ front back, names = front ++ back ∧ d.at? (start ++ front) = none ∧
    ((back ≠ [] ∧ ∃ content time mode, d'.at? (start ++ front) = some (.file content time mode)) ∨
      (back = [] ∧ ∃ time mode, d'.at? (start ++ front) = some (.dir time mode)) ∨
      ((∃ n rest, back = n :: rest ∧ maxName < n.size) ∧
        ∃ time mode, d'.at? (start ++ front) = some (.dir time mode)))

theorem Hinders.cons {d d' : Disk} {start : Place} {n : Text} {names : List Text}
    (h : Hinders d d' (start ++ [n]) names) : Hinders d d' start (n :: names) := by
  obtain ⟨front, back, rfl, h⟩ := h
  refine ⟨n :: front, back, rfl, ?_⟩
  rw [List.append_cons]
  exact h

/-- Something is new where something hinders. -/
theorem Hinders.changed {d d' : Disk} {start : Place} {names : List Text}
    (h : Hinders d d' start names) : ∃ place, d'.at? place ≠ d.at? place := by
  obtain ⟨front, back, -, hnone, hkinds⟩ := h
  refine ⟨start ++ front, ?_⟩
  rw [hnone]
  rcases hkinds with ⟨-, _, _, _, hthere⟩ | ⟨-, _, _, hthere⟩ | ⟨-, _, _, hthere⟩ <;>
    · rw [hthere]
      nofun

/-- **Names lead to what they name, or fail on the way**, but not for want of an entry, if there is
one where a part of them leads. -/
theorem seek_append {d : Disk} (hrooted : d.Rooted) {start : Place} {front : List Text}
    {entry : Entry} (hat : d.at? (start ++ front) = some entry) (back : List Text) :
    (∃ cause, cause ≠ .notFound ∧ d.seek start (front ++ back) = .error cause) ∨
      d.seek start (front ++ back) = d.seek (start ++ front) back := by
  induction front generalizing start with
  | nil => exact .inr (by rw [List.nil_append, List.append_nil])
  | cons n front ih =>
    obtain ⟨time, mode, hdir⟩ := hrooted.above (below_append start (List.cons_ne_nil n front))
      (by rw [hat]; rfl)
    rw [List.append_cons] at hat ⊢
    rw [List.cons_append, seek_dir_cons hdir]
    split
    · exact .inl ⟨.denied, nofun, rfl⟩
    split
    · exact .inl ⟨.nameTooLong, nofun, rfl⟩
    · exact ih hat

theorem at?_of_seek {d : Disk} {start : Place} {names : List Text} {entry : Entry}
    (h : d.seek start names = .ok entry) : d.at? (start ++ names) = some entry := by
  induction names generalizing start with
  | nil =>
    rw [List.append_nil]
    unfold seek at h
    split at h
    · cases h
    · next hat => rw [hat, Except.ok.inj h]
  | cons n names ih =>
    unfold seek at h
    split at h
    · cases h
    · cases h
    split at h
    · cases h
    split at h
    · cases h
    · rw [List.append_cons]
      exact ih h

end Disk

namespace Store

section Later

variable {s : Store} {artifacts : Place → Prop} {x y : Disk} {start : Place} {names : List Text}

/-- A file that is there is one still. -/
theorem Grows.file {place : Place} {content : Bytes} {time : Instant} {mode : Nat}
    (h : s.Grows artifacts x y) (hfile : x.at? place = some (.file content time mode)) :
    ∃ content time mode, y.at? place = some (.file content time mode) := by
  by_cases hchange : y.at? place = x.at? place
  · exact ⟨content, time, mode, hchange.trans hfile⟩
  · obtain ⟨mode, _, -, -, -, hentry, hadds⟩ := h.changed hchange
    cases hadds with
    | dir hnone =>
      rw [hfile] at hnone
      cases hnone
    | file _ _ content => exact ⟨content, _, _, hentry⟩

/-- A directory where nothing was has been made, and may be searched. -/
theorem Grows.made {place : Place} {time : Instant} {mode : Nat} (h : s.Grows artifacts x y)
    (hnone : x.at? place = none) (hdir : y.at? place = some (.dir time mode)) :
    s.Serves y mode ∧ y.Opens place ∧ time = x.now ∧
      ∃ artifact, artifacts artifact ∧ Below place artifact := by
  obtain ⟨_, _, hserves, hopens, -, hentry, hadds⟩ := h.changed (by rw [hnone, hdir]; nofun)
  rw [hdir] at hentry
  cases hadds with
  | dir _ hleads =>
    cases hentry
    exact ⟨hserves, hopens, rfl, hleads⟩
  | file => cases hentry

/-- **A look-up gives the same on a disk that has grown, unless something hinders it.**  No artifact
has come to the place where the names end. -/
theorem Grows.seek (h : s.Grows artifacts x y) (hrooted : x.Rooted)
    (hself : Disk.NoNewFile x y (start ++ names)) :
    y.seek start names = x.seek start names ∨
      x.seek start names = .error .notFound ∧ Disk.Hinders x y start names ∧
        ((∃ cause, cause ≠ .notFound ∧ y.seek start names = .error cause) ∨
          ∃ time mode, y.seek start names = .ok (.dir time mode)) := by
  induction names generalizing start with
  | nil =>
    rw [List.append_nil] at hself
    cases hx : x.at? start with
    | none =>
      rw [Disk.seek_missing hx]
      cases hy : y.at? start with
      | none => exact .inl (Disk.seek_missing hy _)
      | some entry =>
        cases entry with
        | file content time mode =>
          have hsame := hself content time mode hy
          rw [hx, hy] at hsame
          cases hsame
        | dir time mode =>
          refine .inr ⟨rfl, ⟨[], [], rfl, ?_, .inr (.inl ⟨rfl, time, mode, ?_⟩)⟩,
            .inr ⟨time, mode, Disk.seek_nil hy⟩⟩
          · rwa [List.append_nil]
          · rwa [List.append_nil]
    | some entry =>
      refine .inl ?_
      cases entry with
      | file =>
        obtain ⟨content, time, mode, hy⟩ := h.file hx
        have hsame := hself content time mode hy
        rw [hx] at hsame
        rw [Disk.seek_nil hx, Disk.seek_nil hsame]
      | dir time mode =>
        rw [Disk.seek_nil hx, Disk.seek_nil ((h.extends.dirs _ _ _ hx).trans hx)]
  | cons n names ih =>
    rw [List.append_cons] at hself
    cases hx : x.at? start with
    | none =>
      rw [Disk.seek_missing hx]
      cases hy : y.at? start with
      | none => exact .inl (Disk.seek_missing hy _)
      | some entry =>
        have hfront : x.at? (start ++ []) = none := by rwa [List.append_nil]
        cases entry with
        | file content time mode =>
          refine .inr ⟨rfl, ⟨[], n :: names, rfl, hfront, .inl ⟨nofun, content, time, mode, ?_⟩⟩,
            .inl ⟨.notDirectory, nofun, Disk.seek_file_cons hy n names⟩⟩
          rwa [List.append_nil]
        | dir time mode =>
          rw [Disk.seek_dir_cons hy, if_neg (by rw [(h.made hx hy).1.search]; nofun)]
          split
          · next hsize =>
            refine .inr ⟨rfl, ⟨[], n :: names, rfl, hfront,
              .inr (.inr ⟨⟨n, names, rfl, hsize⟩, time, mode, ?_⟩)⟩,
              .inl ⟨.nameTooLong, nofun, rfl⟩⟩
            rwa [List.append_nil]
          · rcases ih hself with hsame | ⟨-, hhinders, hwrong⟩
            · rw [hsame]
              exact .inl (Disk.seek_missing (hrooted.missing hx (List.prefix_append _ _)) _)
            · exact .inr ⟨rfl, hhinders.cons, hwrong⟩
    | some entry =>
      cases entry with
      | file =>
        obtain ⟨content, time, mode, hy⟩ := h.file hx
        exact .inl (by rw [Disk.seek_file_cons hx, Disk.seek_file_cons hy])
      | dir time mode =>
        rw [Disk.seek_dir_cons hx, Disk.seek_dir_cons ((h.extends.dirs _ _ _ hx).trans hx)]
        split
        · exact .inl rfl
        split
        · exact .inl rfl
        · rcases ih hself with hsame | ⟨hmissing, hhinders, hwrong⟩
          · exact .inl hsame
          · exact .inr ⟨hmissing, hhinders.cons, hwrong⟩

/-- No file is on the way of names that lead to something, or are missed. -/
theorem not_file_of_seek {d : Disk} (hrooted : d.Rooted)
    (h : d.seek start names = .error .notFound ∨ ∃ entry, d.seek start names = .ok entry)
    {front : List Text} (hfront : front <+: names) (hne : front ≠ names) (content : Bytes)
    (time : Instant) (mode : Nat) : d.at? (start ++ front) ≠ some (.file content time mode) := by
  intro hfile
  obtain ⟨back, rfl⟩ := hfront
  cases back with
  | nil => exact hne (List.append_nil front).symm
  | cons n back =>
    have hwrong : ∃ cause, cause ≠ .notFound ∧
        d.seek start (front ++ n :: back) = .error cause := by
      rcases Disk.seek_append hrooted hfile (n :: back) with hwrong | hseek
      · exact hwrong
      · exact ⟨.notDirectory, nofun, hseek.trans (Disk.seek_file_cons hfile n back)⟩
    obtain ⟨cause, hcause, hseek⟩ := hwrong
    rw [hseek] at h
    rcases h with h | ⟨entry, h⟩
    · exact hcause (Except.error.inj h)
    · cases h

/-- **The way fits where a look-up gives the same.** -/
theorem Grows.fits {mode : Nat} (h : s.Grows artifacts x y) (hrooted : x.Rooted)
    (hserves : s.Serves x mode) (hsame : y.seek start names = x.seek start names)
    (hx : x.seek start names = .error .notFound ∨ ∃ entry, x.seek start names = .ok entry)
    {front : List Text} (hfront : front <+: names) (hne : front ≠ names) :
    Disk.Fits mode x y (start ++ front) := by
  have hfile := not_file_of_seek hrooted hx hfront hne
  by_cases hchange : y.at? (start ++ front) = x.at? (start ++ front)
  · exact .inl ⟨hchange, hfile⟩
  obtain ⟨bits, _, hserves', hopens, -, hentry, hadds⟩ := h.changed hchange
  cases hadds with
  | dir hnone =>
    obtain rfl : mode = bits := (hserves.extends h.extends).mode_eq hserves'
    exact .inr ⟨hnone, hentry, hopens⟩
  | file _ _ content =>
    exact absurd hentry (not_file_of_seek (h.rooted hrooted) (hsame ▸ hx) hfront hne _ _ _)

/-- **What names lead to is the same where a look-up gives the same.** -/
theorem Grows.target (h : s.Grows artifacts x y) (hrooted : x.Rooted)
    (hsame : y.seek start names = x.seek start names)
    (hx : x.seek start names = .error .notFound ∨ ∃ entry, x.seek start names = .ok entry)
    (hself : Disk.NoNewFile x y (start ++ names)) :
    y.at? (start ++ names) = x.at? (start ++ names) := by
  refine Decidable.of_not_not fun hchange => ?_
  obtain ⟨mode, _, -, -, -, hentry, hadds⟩ := h.changed hchange
  cases hadds with
  | file _ _ content => exact hchange (hself _ _ _ hentry)
  | dir hnone =>
    have hy := Disk.seek_append (h.rooted hrooted) hentry []
    rw [List.append_nil, Disk.seek_nil hentry, hsame] at hy
    rcases hx with hx | ⟨entry, hx⟩
    · rw [hx] at hy
      rcases hy with ⟨cause, hcause, hy⟩ | hy
      · exact hcause (Except.error.inj hy).symm
      · cases hy
    · rw [Disk.at?_of_seek hx] at hnone
      cases hnone

end Later

/-! ## Codes -/

theorem makeDirs_code {mode : Nat} {d d' : Disk} {dir : Text} {steps : List Component} {f : Failure}
    (h : makeDirs mode d dir steps = (.error f, d')) : f.code = .fileAccess := by
  induction steps generalizing d dir with
  | nil => cases h
  | cons c steps ih =>
    unfold makeDirs at h
    dsimp only at h
    split at h
    · exact ih h
    split at h
    · exact ih h
    · exact ih h
    · cases h
      rfl

/-- **A write that fails at a root where artifacts can be stored has one code.** -/
theorem write_code {s : Store} {d d' : Disk} {mode : Nat} {p : Plain} {header : Header}
    {body : Text} {f : Failure} (hserves : s.Serves d mode)
    (h : s.write d (join s.root p.text) header body = (.error f, d')) : f.code = .fileAccess := by
  unfold write at h
  rw [hserves.root, outerSteps_plain hserves.ne_nil] at h
  dsimp only at h
  split at h
  · next hmade =>
    cases h
    exact makeDirs_code hmade
  split at h
  · next hstamp =>
    cases h
    unfold Header.stamp at hstamp
    dsimp only at hstamp
    split at hstamp
    · cases hstamp
      rfl
    · cases hstamp
  split at h
  · next hplace =>
    cases h
    unfold place at hplace
    split at hplace
    · next hdraft =>
      cases hplace
      unfold draftPlace at hdraft
      split at hdraft
      · cases hdraft
        rfl
      · cases hdraft
    · split at hplace
      · cases hplace
        rfl
      · cases hplace
  · cases h

end Store

/-! ## Refreshing -/

namespace Store

/-- **Refreshing in lockstep**: where the template and the artifact are read with the same result,
and a write goes in lockstep, so does the whole. -/
theorem refresh_congr {s : Store} {x x' y : Disk} {compile : Text → Except Diagnostic Text}
    {source artifact : Text} {refreshed : Except Diagnostic Bool}
    (hheader : Header.ofTemplate y source = Header.ofTemplate x source)
    (htext : y.readText source = x.readText source)
    (hread : y.readBytes artifact = x.readBytes artifact)
    (hwrite : ∀ header body stored, isFresh x source artifact = .ok false →
      s.write x artifact header body = (stored, x') →
      ∃ y', s.write y artifact header body = (stored, y') ∧ Disk.Patched x x' y y')
    (hx : s.refresh x compile source artifact = (refreshed, x')) :
    ∃ y', s.refresh y compile source artifact = (refreshed, y') ∧ Disk.Patched x x' y y' := by
  have hfresh : isFresh y source artifact = isFresh x source artifact := by
    unfold isFresh
    rw [hheader, hread]
  unfold refresh at hx ⊢
  rw [hfresh, hheader, htext]
  split at hx
  · cases hx
    exact ⟨y, rfl, .refl _ _⟩
  · cases hx
    exact ⟨y, rfl, .refl _ _⟩
  · cases hx
    exact ⟨y, rfl, .refl _ _⟩
  next header hstale _ =>
  split at hx
  · cases hx
    exact ⟨y, rfl, .refl _ _⟩
  split at hx
  · cases hx
    exact ⟨y, rfl, .refl _ _⟩
  next body hbody =>
  rcases hw : s.write x artifact header body with ⟨stored, d⟩
  rw [hw] at hx
  obtain rfl : d = x' := by
    cases stored <;> exact (Prod.mk.inj hx).2
  obtain ⟨y', hy', hpatched⟩ := hwrite header body stored hstale hw
  refine ⟨y', ?_, hpatched⟩
  rw [hy']
  cases stored <;>
    · cases hx
      rfl

end Store

/-! ## Ensuring -/

namespace Engine

/-- **What ensuring a template comes to**: its outcome, or the code of what went wrong. -/
def verdict (result : Except Diagnostic Outcome) : Except Code Outcome :=
  result.mapError Diagnostic.code

theorem ok_of_verdict {result : Except Diagnostic Outcome} {outcome : Outcome}
    (h : verdict result = .ok outcome) : result = .ok outcome := by
  cases result with
  | error problem => cases h
  | ok outcome => rw [Except.ok.inj h]

theorem error_of_verdict {result : Except Diagnostic Outcome} {code : Code}
    (h : verdict result = .error code) :
    ∃ problem, result = .error problem ∧ problem.code = code := by
  cases result with
  | error problem => exact ⟨problem, rfl, Except.error.inj h⟩
  | ok outcome => cases h

/-- **What templates come to**, ensured one after the other. -/
def verdicts (e : Engine) (d : Disk) (order : List Text) : List (Text × Except Code Outcome) :=
  (e.ensureAll d order).1.map fun outcome => (outcome.1, verdict outcome.2)

theorem verdicts_cons (e : Engine) (d : Disk) (t : Text) (order : List Text) :
    e.verdicts d (t :: order) =
      (t, verdict (e.ensure d t).1) :: e.verdicts (e.ensure d t).2 order := rfl

/-- **A template that the compiler refuses.** -/
def Refuses (e : Engine) (d : Disk) (template : Text) : Prop :=
  ∃ text problem, d.readText (e.templatePath template) = .ok text ∧
    e.compiler.compile text = .error problem

instance (e : Engine) (d : Disk) (template : Text) : Decidable (e.Refuses d template) :=
  match htext : d.readText (e.templatePath template) with
  | .error _ => isFalse fun ⟨_, _, h, _⟩ => by
    rw [htext] at h
    cases h
  | .ok text =>
    match hbody : e.compiler.compile text with
    | .error problem => isTrue ⟨text, problem, htext, hbody⟩
    | .ok _ => isFalse fun ⟨_, _, h, h'⟩ => by
      rw [← Except.ok.inj (htext.symm.trans h), hbody] at h'
      cases h'

/-- Ensuring a template comes to what refreshing its artifact comes to. -/
theorem verdict_of_refresh {e : Engine} {d d' : Disk} {template : Text}
    {refreshed : Except Diagnostic Bool} (hchecks : e.config.checkScripts = true)
    (h : e.store.refresh d e.compiler.compile (e.templatePath template)
      (e.artifactPath template) = (refreshed, d')) :
    ∃ result, e.ensure d template = (result, d') ∧
      verdict result =
        (refreshed.map fun compiled => if compiled then .compiled else .fresh).mapError
          Diagnostic.code := by
  unfold ensure
  dsimp only
  rw [if_pos hchecks, h]
  match refreshed with
  | .error problem => exact ⟨_, rfl, rfl⟩
  | .ok true => exact ⟨_, rfl, rfl⟩
  | .ok false => exact ⟨_, rfl, rfl⟩

section Ready

variable {e : Engine} {artifacts : Place → Prop} {x x' y : Disk} {p : Plain}

/-- **Writing an artifact that is stale on a disk that has grown**: if it is looked up with the same
result, both calls end in the same way, with the same changes. -/
theorem Ready.write_later {header : Header} {body : Text} {stored : Except Failure Unit}
    (h : e.Ready x) (hgrows : e.store.Grows artifacts x y)
    (hself : Disk.NoNewFile x y (x.goal e.config.artifactRoot ++ segments p.artifact.text))
    (hstale : Store.isFresh x (e.templatePath p.text) (e.artifactPath p.text) = .ok false)
    (hsame : y.seek (x.goal e.config.artifactRoot) (segments p.artifact.text) =
      x.seek (x.goal e.config.artifactRoot) (segments p.artifact.text))
    (hx : e.store.write x (e.artifactPath p.text) header body = (stored, x')) :
    ∃ y', e.store.write y (e.artifactPath p.text) header body = (stored, y') ∧
      Disk.Patched x x' y y' := by
  cases hmode : e.store.rootMode x with
  | error f =>
    have hmode' := (Store.rootMode_extends h.artifacts hgrows.extends).trans hmode
    rw [Store.write, hmode] at hx
    cases hx
    exact ⟨y, by rw [Store.write, hmode'], .refl _ _⟩
  | ok mode =>
    have hserves := h.serves_of_stale hmode hstale
    have hclear := h.clear_of_stale hstale
    refine Store.write_lockstep (p := p.artifact) hserves h.here h.rooted hgrows.extends hgrows.now
      (fun front hfront _ => ?_) ?_ hx
    · refine hgrows.fits h.rooted hserves hsame hclear (hfront.trans (List.dropLast_prefix _)) ?_
      rintro rfl
      have hlength := hfront.length_le
      rw [List.length_dropLast] at hlength
      have hpos := List.length_pos_iff.2 (segments_ne_nil p.artifact.text)
      omega
    · rw [x.goal_join_plain]
      exact hgrows.target h.rooted hsame hclear hself

/-- **Refreshing an artifact on a disk that has grown**: the same result, with the same changes; or
something hinders it, and the artifact, which was missed before, is not read.  The artifact itself
has not been stored since. -/
theorem Ready.refresh_later {refreshed : Except Diagnostic Bool} (h : e.Ready x)
    (hgrows : e.store.Grows artifacts x y)
    (hself : Disk.NoNewFile x y (x.goal (e.artifactPath p.text)))
    (hx : e.store.refresh x e.compiler.compile (e.templatePath p.text) (e.artifactPath p.text) =
      (refreshed, x')) :
    (∃ y', e.store.refresh y e.compiler.compile (e.templatePath p.text) (e.artifactPath p.text) =
        (refreshed, y') ∧ Disk.Patched x x' y y') ∨
      Disk.Hinders x y (x.goal e.config.artifactRoot) (segments p.artifact.text) ∧
        Store.isFresh x (e.templatePath p.text) (e.artifactPath p.text) = .ok false ∧
        ∃ problem, problem.code = .fileAccess ∧
          e.store.refresh y e.compiler.compile (e.templatePath p.text) (e.artifactPath p.text) =
            (.error problem, y) := by
  have hy := h.grows hgrows
  have hheader := h.ofTemplate_eq hgrows p
  have htext := h.readText_eq hgrows p
  have hgoal : y.goal e.config.artifactRoot = x.goal e.config.artifactRoot :=
    Disk.goal_congr hgrows.here _
  have hplace : x.goal (e.artifactPath p.text) =
      x.goal e.config.artifactRoot ++ segments p.artifact.text := x.goal_join_plain _ p.artifact
  have hreadx : x.readBytes (e.artifactPath p.text) = _ :=
    Disk.readBytes_join h.artifacts p.artifact
  have hready : y.readBytes (e.artifactPath p.text) = _ :=
    Disk.readBytes_join hy.artifacts p.artifact
  rw [hgoal] at hready
  rw [hplace] at hself
  rcases hgrows.seek h.rooted hself with hsame | ⟨hmissing, hhinders, hwrong⟩
  · refine .inl (Store.refresh_congr hheader htext ?_
      (fun header body stored hstale hwrite => h.write_later hgrows hself hstale hsame hwrite) hx)
    rw [hready, hsame, hreadx]
  obtain ⟨cause, hcause, (hunread : y.readBytes (e.artifactPath p.text) = _)⟩ :=
    Disk.readBytes_hindered hy.artifacts (by rw [hgoal]; exact hwrong)
  rw [hmissing] at hreadx
  cases hpath : Disk.checkPath (e.artifactPath p.text) with
  | error other =>
    -- The path itself is refused, on both disks.
    have hrefused : x.readBytes (e.artifactPath p.text) = .error other := by
      rw [hreadx]
      exact congrArg (Except.bind · _) hpath
    have hrefused' : y.readBytes (e.artifactPath p.text) = .error other := by
      rw [hready]
      exact congrArg (Except.bind · _) hpath
    have hother : other ≠ .notFound := by
      rintro rfl
      exact Disk.checkPath_join (Disk.ne_nil_of_isDir h.artifacts) _ hpath
    refine .inl (Store.refresh_congr hheader htext (hrefused'.trans hrefused.symm)
      (fun _ _ _ hstale _ => ?_) hx)
    rw [Store.isFresh_unread hother hrefused] at hstale
    cases hok : Header.ofTemplate x (e.templatePath p.text) <;>
      · rw [hok] at hstale
        cases hstale
  | ok _ =>
    have hmissed : x.readBytes (e.artifactPath p.text) = .error .notFound := by
      rw [hreadx]
      exact congrArg (Except.bind · _) hpath
    have hfresh : Store.isFresh y (e.templatePath p.text) (e.artifactPath p.text) = _ :=
      Store.isFresh_unread hcause hunread
    rw [hheader] at hfresh
    cases hok : Header.ofTemplate x (e.templatePath p.text) with
    | error f =>
      rw [hok] at hfresh
      have hfailed : Store.isFresh x (e.templatePath p.text) (e.artifactPath p.text) =
          .error f := by
        rw [Store.isFresh, hok]
      rw [Store.refresh, hfailed] at hx
      cases hx
      exact .inl ⟨y, by rw [Store.refresh, hfresh]; rfl, .refl _ _⟩
    | ok header =>
      rw [hok] at hfresh
      refine .inr ⟨hhinders, by rw [Store.isFresh, hok, hmissed],
        (Failure.notRead (e.artifactPath p.text) cause).diagnostic, rfl, ?_⟩
      rw [Store.refresh, hfresh]
      rfl

/-- **Ensuring a template on a disk that has grown**: the same verdict, with the same changes; or
something hinders it, and the artifact, which was missed before, is not read. -/
theorem Ready.ensure_later {result : Except Diagnostic Outcome} (h : e.Ready x)
    (hgrows : e.store.Grows artifacts x y)
    (hself : Disk.NoNewFile x y (x.goal (e.artifactPath p.text)))
    (hx : e.ensure x p.text = (result, x')) :
    (∃ result' y', e.ensure y p.text = (result', y') ∧ verdict result' = verdict result ∧
        Disk.Patched x x' y y') ∨
      Disk.Hinders x y (x.goal e.config.artifactRoot) (segments p.artifact.text) ∧
        Store.isFresh x (e.templatePath p.text) (e.artifactPath p.text) = .ok false ∧
        ∃ result', e.ensure y p.text = (result', y) ∧ verdict result' = .error .fileAccess := by
  rcases hrefresh : e.store.refresh x e.compiler.compile (e.templatePath p.text)
    (e.artifactPath p.text) with ⟨refreshed, d⟩
  obtain ⟨_, hensure, hverdict⟩ := verdict_of_refresh h.checks hrefresh
  rw [hx] at hensure
  cases hensure
  rcases h.refresh_later hgrows hself hrefresh with
    ⟨y', hy, hpatched⟩ | ⟨hhinders, hstale, problem, hcode, hy⟩
  · obtain ⟨result', hensure, hverdict'⟩ := verdict_of_refresh h.checks hy
    exact .inl ⟨result', y', hensure, hverdict'.trans hverdict.symm, hpatched⟩
  · obtain ⟨result', hensure, hverdict'⟩ := verdict_of_refresh h.checks hy
    refine .inr ⟨hhinders, hstale, result', hensure, hverdict'.trans ?_⟩
    rw [← hcode]
    rfl

/-- **A template that is taken but cannot be stored fails with one code**, if artifacts can be
stored at all. -/
theorem Ready.verdict_of_failed {result : Except Diagnostic Outcome} {mode : Nat} (h : e.Ready x)
    (hmode : e.store.rootMode x = .ok mode)
    (hstale : Store.isFresh x (e.templatePath p.text) (e.artifactPath p.text) = .ok false)
    (hrefuses : ¬ e.Refuses x p.text) (hx : e.ensure x p.text = (result, x')) :
    verdict result = .ok .compiled ∨ verdict result = .error .fileAccess := by
  rcases hrefresh : e.store.refresh x e.compiler.compile (e.templatePath p.text)
    (e.artifactPath p.text) with ⟨refreshed, d⟩
  obtain ⟨_, hensure, hverdict⟩ := verdict_of_refresh h.checks hrefresh
  rw [hx] at hensure
  cases hensure
  rw [hverdict]
  have hheader : ∃ header, Header.ofTemplate x (e.templatePath p.text) = .ok header := by
    cases hok : Header.ofTemplate x (e.templatePath p.text) with
    | ok header => exact ⟨header, rfl⟩
    | error f =>
      rw [Store.isFresh, hok] at hstale
      cases hstale
  obtain ⟨header, hheader⟩ := hheader
  rw [Store.refresh, hstale, hheader] at hrefresh
  dsimp only at hrefresh
  split at hrefresh
  · cases hrefresh
    exact .inr rfl
  next text htext =>
  split at hrefresh
  · next problem hproblem => exact absurd ⟨text, problem, htext, hproblem⟩ hrefuses
  next body hbody =>
  split at hrefresh
  · next f made hwrite =>
    cases hrefresh
    have hcode := Store.write_code (p := p.artifact) (h.serves_of_stale hmode hstale) hwrite
    exact .inr (congrArg Except.error hcode)
  · cases hrefresh
    exact .inl rfl

end Ready

end Engine

end Stencil
