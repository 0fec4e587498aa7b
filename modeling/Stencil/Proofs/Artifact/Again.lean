import Stencil.Proofs.Artifact.Header
import Stencil.Proofs.Artifact.Order

/-!
# Proofs/Artifact/Again — building a second time

    d ──build──▸ y ──build──▸ y        nothing is left to do

After a build every artifact that was compiled is fresh: what is stamped is accepted, and no other
template touches it (`Ready.again_of_ok`).  A template that has failed fails again, and leaves
nothing behind that it has not left before (`Ready.again_of_failed`).  Its code stays the same,
unless another artifact has since come in the way of a template that the compiler refuses
(`buildAll_again_refused`); where templates that clash are taken both or refused both
(`Consistent`), a second build changes nothing (`buildAll_again`).
-/

namespace Stencil

open Stencil.Path

/-- What has been read is read again, as long as it stays and every way is open. -/
theorem Disk.readBytes_mono {d d' : Disk} {p : Text} {content : Bytes} (hext : d.Extends d')
    (hat : d'.at? (d.goal p) = d.at? (d.goal p)) (h : d.readBytes p = .ok content) :
    d'.readBytes p = .ok content := by
  unfold readBytes at h ⊢
  cases hentry : d.entry p with
  | error cause =>
    rw [hentry] at h
    cases h
  | ok entry =>
    rw [hentry] at h
    rw [entry_mono hext hat hentry]
    exact h

namespace Store

/-- **Directories are made where nothing is, or not at all.** -/
theorem makeDirs_new {mode : Nat} {d d' : Disk} {dir : Text} {steps : List Component}
    {result : Except Failure Text} (h : makeDirs mode d dir steps = (result, d')) :
    (∀ place, (d.at? place).isSome → (d'.at? place).isSome) ∧
      (d' = d ∨ ∃ place, d.at? place = none ∧ (d'.at? place).isSome) := by
  induction steps generalizing d dir with
  | nil =>
    cases h
    exact ⟨fun _ h => h, .inl rfl⟩
  | cons c steps ih =>
    unfold makeDirs at h
    dsimp only at h
    split at h
    · exact ih h
    split at h
    · next made hmade =>
      obtain ⟨hnone, ⟨outer, rfl⟩, -⟩ := Disk.makeDir_ok hmade
      obtain ⟨hkeep, -⟩ := ih h
      refine ⟨fun place hsome => hkeep place ?_, .inr ⟨_, hnone, hkeep _ ?_⟩⟩
      · rw [Disk.at?_put]
        split
        · rfl
        · exact hsome
      · rw [Disk.at?_put, if_pos rfl]
        rfl
    · exact ih h
    · cases h
      exact ⟨fun _ h => h, .inl rfl⟩

end Store

namespace Engine

/-- **A template that fails leaves a disk that looks otherwise, or is the same.** -/
theorem ensure_failed {e : Engine} {d d' : Disk} {template : Text} {problem : Diagnostic}
    (h : e.ensure d template = (.error problem, d')) :
    d' = d ∨ ∃ place, d'.at? place ≠ d.at? place := by
  rcases ensure_cases h with ⟨-, rfl⟩ | ⟨header, body, stored, hwrite, hstored⟩
  · exact .inl rfl
  rcases Store.write_split hwrite with ⟨-, rfl⟩ | ⟨mode, steps, last, made, -, -, hmade, hend⟩
  · exact .inl rfl
  rcases hend with ⟨-, rfl⟩ | ⟨_, _, -, -, -, rfl⟩
  · rcases (Store.makeDirs_new hmade).2 with rfl | ⟨place, hnone, hsome⟩
    · exact .inl rfl
    · refine .inr ⟨place, fun hsame => ?_⟩
      rw [hsame, hnone] at hsome
      cases hsome
  · cases hstored.2 rfl

/-- **Templates that clash are treated alike**: where the artifact of one lies below that of
another, the compiler takes both or refuses both; and one that it refuses is crowded by none that
it takes. -/
structure Consistent (e : Engine) (d : Disk) : Prop where
  nests : ∀ t ∈ e.templates d, ∀ t' ∈ e.templates d, e.Nests d t t' →
    (e.Refuses d t ↔ e.Refuses d t')
  crowds : ∀ t ∈ e.templates d, ∀ t' ∈ e.templates d, e.Crowds d t t' →
    e.Refuses d t' → e.Refuses d t

/-- What a result comes to the next time: what is there is fresh, and what has failed fails. -/
def nextTime (result : Except Code Outcome) : Except Code Outcome := result.map fun _ => .fresh

section Again

variable {e : Engine} {artifacts : Place → Prop} {d x x' y : Disk} {later order order' : List Text}
  {p : Plain}

/-- **What has been ensured is fresh.** -/
theorem Ready.fresh_of_ok {outcome : Outcome} (h : e.Ready x)
    (hx : e.ensure x p.text = (.ok outcome, x')) :
    Store.isFresh x' (e.templatePath p.text) (e.artifactPath p.text) = .ok true := by
  obtain ⟨refreshed, hrefresh, hcompiled, hfresh⟩ := refresh_of_ensure h.checks hx
  rcases Store.refresh_cases hrefresh with
    ⟨⟨problem, rfl⟩, -⟩ | ⟨-, hisFresh, rfl⟩ |
      ⟨header, text, body, stored, hheader, -, -, hwrite, hfalse, hstored⟩
  · cases outcome with
    | fresh => cases hfresh.1 rfl
    | compiled => cases hcompiled.1 rfl
  · exact hisFresh
  · cases outcome with
    | fresh => exact absurd (hfresh.1 rfl) hfalse
    | compiled =>
      obtain rfl := hstored.1 (hcompiled.1 rfl)
      obtain ⟨artifact, hartifact, hread⟩ := Store.readBytes_of_write hwrite
      have hgrows : e.store.Grows (· = x.goal (e.artifactPath p.text)) x x' := h.ensure_grows rfl hx
      rw [Store.isFresh, h.ofTemplate_eq hgrows, hheader, hread]
      exact congrArg _ (Header.accepts_of_stamp hartifact)

/-- **A template that has been ensured is fresh the next time**, as long as no other has its
artifact. -/
theorem Ready.again_of_ok {outcome : Outcome} (h : e.Ready x)
    (hx : e.ensure x p.text = (.ok outcome, x')) (hgrows : e.store.Grows artifacts x' y)
    (hself : Disk.NoNewFile x' y (x'.goal (e.artifactPath p.text))) :
    e.ensure y p.text = (.ok .fresh, y) := by
  have hready : e.Ready x' :=
    h.grows (h.ensure_grows rfl hx : e.store.Grows (· = x.goal (e.artifactPath p.text)) x x')
  have hfresh := h.fresh_of_ok hx
  obtain ⟨header, content, hheader, hcontent, -⟩ := Store.isFresh_ok hfresh
  obtain ⟨time, mode, hfile⟩ := Disk.readBytes_ok hcontent
  obtain ⟨content', time', mode', hlater⟩ := hgrows.file hfile
  have hread := Disk.readBytes_mono hgrows.extends (hself _ _ _ hlater) hcontent
  have hfresh' : Store.isFresh y (e.templatePath p.text) (e.artifactPath p.text) = .ok true := by
    rw [Store.isFresh, hheader, hcontent] at hfresh
    rw [Store.isFresh, hready.ofTemplate_eq hgrows, hheader, hread]
    exact hfresh
  unfold ensure
  dsimp only
  rw [if_pos h.checks, Store.refresh, hfresh']

/-- **A template that fails stores nothing**, so its artifact is as it was until another has it. -/
theorem noNewFile_of_failed {problem : Diagnostic} (hx : e.ensure x p.text = (.error problem, x'))
    {place : Place} (h : Disk.NoNewFile x' y place) : Disk.NoNewFile x y place := by
  intro content time mode hfile
  have hsame := h content time mode hfile
  obtain ⟨-, -, -, hmakes⟩ := (ensure_atomic hx).failed ⟨problem, rfl⟩
  rcases hmakes place with hkept | ⟨-, _, _, _, -, -, -, hdir⟩
  · exact hsame.trans hkept
  · rw [hsame, hdir] at hfile
    cases hfile

/-- **A template that fails in the same way has nothing left to make.** -/
theorem still_of_patched {y' : Disk} {problem problem' : Diagnostic}
    (hx : e.ensure x p.text = (.error problem, x')) (hext : x'.Extends y)
    (hpatched : Disk.Patched x x' y y') (hy : e.ensure y p.text = (.error problem', y')) :
    y' = y := by
  rcases ensure_failed hy with rfl | ⟨place, hchange⟩
  · rfl
  refine absurd ?_ hchange
  obtain ⟨-, -, -, hmakes⟩ := (ensure_atomic hx).failed ⟨problem, rfl⟩
  rcases hmakes place with hkept | ⟨hnone, _, _, _, -, -, -, hdir⟩
  · exact hpatched.other place hkept
  · rw [hpatched.same place (by rw [hnone, hdir]; nofun), hext.dirs place _ _ hdir]

/-- **A template that is hindered has failed with the same code before**, as the compiler takes
it. -/
theorem Ready.code_of_hindered {problem : Diagnostic} (hready : e.Ready d) (hcons : e.Consistent d)
    (hbefore : e.store.Grows artifacts d x) (hx : e.ensure x p.text = (.error problem, x'))
    (hgrows : e.store.Grows (e.Artifacts d later) x y) (hp : p.text ∈ e.templates d)
    (hmem : ∀ t ∈ later, t ∈ e.templates d)
    (hhinders : Disk.Hinders x y (x.goal e.config.artifactRoot) (segments p.artifact.text))
    (hstale : Store.isFresh x (e.templatePath p.text) (e.artifactPath p.text) = .ok false) :
    problem.code = .fileAccess := by
  have hreadyx : e.Ready x := hready.grows hbefore
  obtain ⟨t, ht, htaken, hclash⟩ := hindered_by hbefore.extends hgrows hhinders
  have htemplate := hmem t ht
  have hmine : ¬ e.Refuses d p.text := by
    rcases hclash with hnests | hnests | ⟨hcrowds, -⟩
    · rwa [← hcons.nests t htemplate _ hp hnests]
    · rwa [hcons.nests _ hp t htemplate hnests]
    · exact fun hrefuses => htaken (hcons.crowds t htemplate _ hp hcrowds hrefuses)
  obtain ⟨place, hchange⟩ := hhinders.changed
  obtain ⟨mode, _, hserves, -⟩ := hgrows.changed hchange
  have hfailed := hreadyx.verdict_of_failed
    (hserves.before hreadyx.artifacts hgrows.extends).root hstale
    (by rwa [hready.refuses_iff hbefore]) hx
  rcases hfailed with hfailed | hfailed
  · cases hfailed
  · exact Except.error.inj hfailed

/-- **A template that has failed fails again with the same code**, and changes nothing. -/
theorem Ready.again_of_failed {problem : Diagnostic} (hready : e.Ready d) (hcons : e.Consistent d)
    (hbefore : e.store.Grows artifacts d x) (hx : e.ensure x p.text = (.error problem, x'))
    (hgrows : e.store.Grows (e.Artifacts d later) x' y) (hp : p.text ∈ e.templates d)
    (hmem : ∀ t ∈ later, t ∈ e.templates d)
    (hself : Disk.NoNewFile x' y (x'.goal (e.artifactPath p.text))) :
    ∃ problem', e.ensure y p.text = (.error problem', y) ∧ problem'.code = problem.code := by
  have hfirst : e.store.Grows (e.Artifacts d (p.text :: later)) x x' :=
    hready.ensure_grows_taken hbefore List.mem_cons_self hx
  have hall : e.store.Grows (e.Artifacts d (p.text :: later)) x y :=
    hfirst.trans (hgrows.mono fun _ => .cons _)
  rw [Disk.goal_congr hfirst.here] at hself
  rcases (hready.grows hbefore).ensure_later hall (noNewFile_of_failed hx hself) hx with
    ⟨result, y', hensure, hverdict, hpatched⟩ | ⟨hhinders, hstale, result, hensure, hverdict⟩
  · obtain ⟨problem', rfl, hcode⟩ := error_of_verdict hverdict
    obtain rfl := still_of_patched hx hgrows.extends hpatched hensure
    exact ⟨problem', hensure, hcode⟩
  · obtain ⟨problem', rfl, hcode⟩ := error_of_verdict hverdict
    refine ⟨problem', hensure, hcode.trans (Eq.symm ?_)⟩
    refine hready.code_of_hindered hcons hbefore hx hall hp ?_ hhinders hstale
    rintro t (_ | ⟨_, ht⟩)
    · exact hp
    · exact hmem t ht

/-- **A template that has been ensured is settled**: the next time it is fresh, or fails with the
same code, and changes nothing. -/
theorem Ready.again {result : Except Diagnostic Outcome} (hready : e.Ready d)
    (hcons : e.Consistent d) (hbefore : e.store.Grows artifacts d x)
    (hx : e.ensure x p.text = (result, x')) (hgrows : e.store.Grows (e.Artifacts d later) x' y)
    (hplain : ∀ t ∈ later, ∃ q : Plain, q.text = t) (hp : p.text ∈ e.templates d)
    (hmem : ∀ t ∈ later, t ∈ e.templates d) (hnew : p.text ∉ later) :
    (e.ensure y p.text).2 = y ∧ verdict (e.ensure y p.text).1 = nextTime (verdict result) := by
  have hhere : x'.here = d.here := (hready.ensure_grows_taken hbefore
    (List.mem_singleton_self p.text) hx).here.trans hbefore.here
  have hself : Disk.NoNewFile x' y (x'.goal (e.artifactPath p.text)) := by
    rw [Disk.goal_congr hhere]
    exact noNewFile_of_new hplain hgrows hnew
  cases result with
  | error problem =>
    obtain ⟨problem', hensure, hcode⟩ :=
      hready.again_of_failed hcons hbefore hx hgrows hp hmem hself
    rw [hensure]
    exact ⟨rfl, congrArg Except.error hcode⟩
  | ok outcome =>
    rw [(hready.grows hbefore).again_of_ok hx hgrows hself]
    exact ⟨rfl, rfl⟩

/-! ## Builds -/

/-- **Templates one after the other add the artifacts of those that the compiler takes.** -/
theorem Ready.ensureAll_grows_taken (hready : e.Ready d)
    (hbefore : e.store.Grows (fun _ => True) d x) (hplain : ∀ t ∈ order, ∃ q : Plain, q.text = t) :
    e.store.Grows (e.Artifacts d order) x (e.ensureAll x order).2 := by
  induction order generalizing x with
  | nil => exact .refl
  | cons t order ih =>
    obtain ⟨p, rfl⟩ := hplain t List.mem_cons_self
    have hfirst : e.store.Grows (e.Artifacts d (p.text :: order)) x (e.ensure x p.text).2 :=
      hready.ensure_grows_taken hbefore List.mem_cons_self rfl
    have hrest := ih (hbefore.trans (hfirst.mono fun _ _ => trivial))
      fun t ht => hplain t (List.mem_cons_of_mem _ ht)
    exact hfirst.trans (hrest.mono fun _ => .cons _)

/-- **Every template of a build is settled** on the disk that the build leaves. -/
theorem Ready.ensureAll_again (hready : e.Ready d) (hproper : d.Proper) (hcons : e.Consistent d)
    (hbefore : e.store.Grows (fun _ => True) d x) (horder : ∀ t ∈ order, t ∈ e.templates d)
    (hnodup : order.Nodup) :
    ∀ outcome ∈ (e.ensureAll x order).1,
      (e.ensure (e.ensureAll x order).2 outcome.1).2 = (e.ensureAll x order).2 ∧
        verdict (e.ensure (e.ensureAll x order).2 outcome.1).1 = nextTime (verdict outcome.2) := by
  induction order generalizing x with
  | nil => exact nofun
  | cons t order ih =>
    obtain ⟨p, rfl⟩ := plain_of_mem_templates hproper.named (horder t List.mem_cons_self)
    obtain ⟨hnew, hnodup⟩ := List.nodup_cons.1 hnodup
    have hrest : ∀ t ∈ order, t ∈ e.templates d := fun t ht => horder t (List.mem_cons_of_mem _ ht)
    have hplain : ∀ t ∈ order, ∃ q : Plain, q.text = t := fun t ht =>
      plain_of_mem_templates hproper.named (hrest t ht)
    have hfirst : e.store.Grows (e.Artifacts d [p.text]) x (e.ensure x p.text).2 :=
      hready.ensure_grows_taken hbefore List.mem_cons_self rfl
    have hmiddle := hbefore.trans (hfirst.mono fun _ _ => trivial)
    rintro outcome (_ | ⟨_, hmem⟩)
    · exact hready.again hcons hbefore rfl (hready.ensureAll_grows_taken hmiddle hplain) hplain
        (horder _ List.mem_cons_self) hrest hnew
    · exact ih hmiddle hrest hnodup outcome hmem

theorem map_fst_ensureAll (e : Engine) (d : Disk) (order : List Text) :
    (e.ensureAll d order).1.map Prod.fst = order := by
  induction order generalizing d with
  | nil => rfl
  | cons t order ih => exact congrArg (t :: ·) (ih _)

/-- Templates that change nothing come to what each comes to on the same disk. -/
theorem ensureAll_still (h : ∀ t ∈ order, (e.ensure y t).2 = y) :
    (e.ensureAll y order).2 = y ∧
      e.verdicts y order = order.map fun t => (t, verdict (e.ensure y t).1) := by
  induction order with
  | nil => exact ⟨rfl, rfl⟩
  | cons t order ih =>
    obtain ⟨hlast, hverdicts⟩ := ih fun t ht => h t (List.mem_cons_of_mem _ ht)
    have hsame := h t List.mem_cons_self
    rw [verdicts_cons, List.map_cons, ensureAll]
    dsimp only
    rw [hsame]
    exact ⟨hlast, congrArg _ hverdicts⟩

/-- **A second pass over the templates changes nothing**, and each comes to what its first result
comes to the next time. -/
theorem Ready.pass_again (hready : e.Ready d) (hproper : d.Proper) (hcons : e.Consistent d)
    (horder : order.Perm (e.templates d)) :
    (∀ t ∈ order, (e.ensure (e.ensureAll d order).2 t).2 = (e.ensureAll d order).2) ∧
      order.map (fun t => (t, verdict (e.ensure (e.ensureAll d order).2 t).1)) =
        (e.verdicts d order).map fun outcome => (outcome.1, nextTime outcome.2) := by
  have hagain := hready.ensureAll_again hproper hcons .refl (fun t ht => horder.mem_iff.1 ht)
    (horder.nodup_iff.2 (e.nodup_templates hproper))
  have hfst := map_fst_ensureAll e d order
  generalize (e.ensureAll d order).2 = y at hagain ⊢
  constructor
  · intro t ht
    rw [← hfst] at ht
    obtain ⟨outcome, houtcome, rfl⟩ := List.mem_map.1 ht
    exact (hagain outcome houtcome).1
  · calc order.map (fun t => (t, verdict (e.ensure y t).1))
        = (e.ensureAll d order).1.map fun outcome =>
            (outcome.1, verdict (e.ensure y outcome.1).1) := by
          conv => lhs; rw [← hfst, List.map_map]
          rfl
      _ = (e.ensureAll d order).1.map fun outcome => (outcome.1, nextTime (verdict outcome.2)) :=
          List.map_congr_left fun outcome houtcome => by rw [(hagain outcome houtcome).2]
      _ = (e.verdicts d order).map fun outcome => (outcome.1, nextTime outcome.2) := by
          rw [verdicts, List.map_map]
          rfl

/-- **The templates of a build are found again after it.** -/
theorem Ready.templates_again (hready : e.Ready d) (hproper : d.Proper)
    (horder : order.Perm (e.templates d)) :
    e.templates (e.ensureAll d order).2 = e.templates d :=
  hready.templates_eq hproper.named (hready.ensureAll_grows_taken .refl fun _ ht =>
    plain_of_mem_templates hproper.named (horder.mem_iff.1 ht))

/-- **A second build changes nothing**, where templates that clash are taken both or refused both:
the same templates come in the same order, each fresh or with the code that it has failed with
before.  It does not matter in which order either build takes the templates. -/
theorem buildAll_again (hready : e.Ready d) (hproper : d.Proper) (hcons : e.Consistent d) :
    ((e.buildAll (e.buildAll d).2).2 = (e.buildAll d).2 ∧
      (e.buildAll (e.buildAll d).2).1.map (fun outcome => (outcome.1, verdict outcome.2)) =
        (e.buildAll d).1.map fun outcome => (outcome.1, nextTime (verdict outcome.2))) ∧
    ∀ order order', order.Perm (e.templates d) →
      order'.Perm (e.templates (e.ensureAll d order).2) →
        (e.ensureAll (e.ensureAll d order).2 order').2 = (e.ensureAll d order).2 ∧
          (e.verdicts (e.ensureAll d order).2 order').Perm
            ((e.verdicts d order).map fun outcome => (outcome.1, nextTime outcome.2)) := by
  have hpass : ∀ order order', order.Perm (e.templates d) → order'.Perm order →
      (e.ensureAll (e.ensureAll d order).2 order').2 = (e.ensureAll d order).2 ∧
        e.verdicts (e.ensureAll d order).2 order' = order'.map fun t =>
          (t, verdict (e.ensure (e.ensureAll d order).2 t).1) := by
    intro order order' horder hperm
    exact ensureAll_still fun t ht =>
      (hready.pass_again hproper hcons horder).1 t (hperm.mem_iff.1 ht)
  refine ⟨?_, fun order order' horder horder' => ?_⟩
  · obtain ⟨hlast, hverdicts⟩ := hpass _ _ (.refl _) (.refl _)
    have hbuild : e.buildAll (e.buildAll d).2 = e.ensureAll (e.buildAll d).2 (e.templates d) :=
      congrArg _ (hready.templates_again hproper (.refl _))
    rw [hbuild]
    refine ⟨hlast, hverdicts.trans ?_⟩
    rw [(hready.pass_again hproper hcons (.refl _)).2, verdicts, List.map_map]
    rfl
  · rw [hready.templates_again hproper horder] at horder'
    have hperm : order'.Perm order := horder'.trans horder.symm
    obtain ⟨hlast, hverdicts⟩ := hpass order order' horder hperm
    refine ⟨hlast, ?_⟩
    rw [hverdicts, ← (hready.pass_again hproper hcons horder).2]
    exact hperm.map _

end Again

end Engine

/-- The same two templates, of which the compiler refuses the one at the top. -/
def Disk.refused : Disk :=
  Disk.nested.put ["templates", "a"] (.file (Text.utf8 "[= ]") 0 0o644)

namespace Engine

/-- Of two templates that clash, both of which the compiler takes, one is compiled and one fails; so
they do the next time. -/
theorem buildAll_again_nested :
    ((Engine.mk .standard).buildAll .nested).1.map (fun outcome => (outcome.1, verdict outcome.2)) =
        [(("a" : Text), .ok .compiled), (("a.php/b" : Text), .error .fileAccess)] ∧
      ((Engine.mk .standard).buildAll ((Engine.mk .standard).buildAll .nested).2).2 =
        ((Engine.mk .standard).buildAll .nested).2 ∧
      ((Engine.mk .standard).buildAll ((Engine.mk .standard).buildAll .nested).2).1.map
          (fun outcome => (outcome.1, verdict outcome.2)) =
        [(("a" : Text), .ok .fresh), (("a.php/b" : Text), .error .fileAccess)] := by
  have hnames : ∀ t ∈ (Engine.mk .standard).templates .nested,
      ∀ n ∈ Disk.nested.goal ((Engine.mk .standard).artifactPath t), n.size ≤ Disk.maxName := by
    rw [templates_nested]
    decide +kernel
  have hcons : (Engine.mk .standard).Consistent .nested :=
    ⟨by rw [templates_nested]; decide +kernel,
      fun t _ t' ht' h => absurd h (not_crowds (hnames t' ht') t)⟩
  have hfirst : ((Engine.mk .standard).buildAll .nested).1.map
      (fun outcome => (outcome.1, verdict outcome.2)) =
        [(("a" : Text), .ok .compiled), (("a.php/b" : Text), .error .fileAccess)] := by
    unfold buildAll
    rw [templates_nested]
    with_unfolding_all rfl
  obtain ⟨⟨hlast, hsecond⟩, -⟩ := buildAll_again (by decide +kernel) (by decide +kernel) hcons
  refine ⟨hfirst, hlast, hsecond.trans ?_⟩
  unfold buildAll
  rw [templates_nested]
  with_unfolding_all rfl

/-- **A template that is refused tells of the build before**: the compiler refuses `a`, until the
artifact of `a.php/b` is there; from then on a directory is in the place of its artifact. -/
theorem buildAll_again_refused :
    (Engine.mk .standard).Ready .refused ∧ Disk.refused.Proper ∧
      ((Engine.mk .standard).buildAll ((Engine.mk .standard).buildAll .refused).2).1.map
          (fun outcome => (outcome.1, verdict outcome.2)) ≠
        ((Engine.mk .standard).buildAll .refused).1.map
          fun outcome => (outcome.1, nextTime (verdict outcome.2)) := by
  have htemplates : (Engine.mk .standard).templates .refused = (["a", "a.php/b"] : List Text) :=
    templates_of_sorted ["templates"] [["a"], ["a.php", "b"]]
      (by with_unfolding_all rfl) (by decide +kernel) (by decide +kernel)
  have hready : (Engine.mk .standard).Ready .refused := by decide +kernel
  have hproper : Disk.refused.Proper := by decide +kernel
  have hagain : (Engine.mk .standard).templates ((Engine.mk .standard).buildAll .refused).2 =
      (Engine.mk .standard).templates .refused := hready.templates_again hproper (.refl _)
  refine ⟨hready, hproper, ?_⟩
  unfold buildAll at hagain ⊢
  rw [hagain, htemplates]
  decide +kernel

end Engine

end Stencil
