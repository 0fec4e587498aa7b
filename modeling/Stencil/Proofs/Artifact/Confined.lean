import Stencil.Engine
import Stencil.Proofs.Disk.Follow

/-!
# Proofs/Artifact/Confined — what storing an artifact changes

    root ──steps──▸ directories on the way ──▸ artifact

A store compares the components of an artifact with those of its root, and then walks the steps
behind them.  What it changes are places on that way: directories where nothing was, and in the end
the place of the artifact (`write_cases`).  A step up is compared like any other, so the way may
leave the root; `confined_iff_stays` says that nothing outside of the root changes as long as the
way stays there, and that an artifact that is stored is confined in no other case.
-/

namespace Stencil

open Stencil.Path

namespace Store

/-! ## The way to an artifact -/

/-- **The directories on the way of steps** are what `makeDirs` changes. -/
theorem makeDirs_paves {mode : Nat} {d d' : Disk} {dir : Text} {steps : List Component}
    {result : Except Failure Text} (hsteps : ∀ c ∈ steps, c.IsStep)
    (h : makeDirs mode d dir steps = (result, d')) : d.Paves d' (way (d.goal dir) steps) := by
  induction steps generalizing d dir with
  | nil =>
    rw [makeDirs] at h
    cases h
    exact .refl _ _
  | cons c steps ih =>
    have hc : c.IsStep := hsteps c List.mem_cons_self
    have hrest : ∀ other ∈ steps, other.IsStep := fun _ h => hsteps _ (List.mem_cons_of_mem _ h)
    rw [d.way_cons_step dir hc]
    unfold makeDirs at h
    simp only at h
    split at h
    · exact (Disk.Paves.refl d _).trans (ih hrest h)
    split at h
    · next hmade =>
      have hstep := Disk.makeDir_paves hc hmade
      rw [← Disk.goal_congr hstep.here (join dir c.text)]
      exact hstep.trans (ih hrest h)
    · exact (Disk.Paves.refl d _).trans (ih hrest h)
    · cases h
      exact .refl _ _

/-! ## Writing -/

theorem rootMode_ok {s : Store} {d : Disk} {mode : Nat} (h : s.rootMode d = .ok mode) :
    ∃ time, d.entry s.root = .ok (.dir time mode) ∧ (Entry.dir time mode).allows .read = true := by
  unfold rootMode at h
  split at h
  · cases h
  · cases h
  next dir hfile hdir =>
  split at h
  · cases h
  next hread =>
  split at h
  · cases h
  cases h
  cases dir with
  | file content time mode => exact absurd rfl (hfile content time mode)
  | dir time mode =>
    have hallows : (Entry.dir time mode).allows .read = true := by simpa using hread
    exact ⟨time, hdir, hallows⟩

/-- **The steps to an artifact**: those that its path takes behind the root, up to the last. -/
theorem outerSteps_ok {s : Store} {d : Disk} {artifact : Text} {mode : Nat} {steps : List Component}
    (hmode : s.rootMode d = .ok mode) (h : s.outerSteps artifact = .ok steps) :
    ∃ rest time, steps = (components rest).dropLast ∧ relativeTo? s.root artifact = some rest ∧
      components artifact = components s.root ++ components rest ∧ (∀ c ∈ steps, c.IsStep) ∧
      d.at? (d.goal s.root) = some (.dir time mode) ∧
      (Entry.dir time mode).allows .read = true := by
  obtain ⟨time, hroot, hread⟩ := rootMode_ok hmode
  -- An empty path leads nowhere, so the root says something.
  have hne : s.root ≠ [] := by
    intro hempty
    rw [hempty] at hroot
    cases hroot
  unfold outerSteps at h
  split at h
  · cases h
  next rest hrest =>
  cases h
  obtain ⟨hcomponents, hisStep⟩ := components_of_relativeTo? hne hrest
  exact ⟨rest, time, rfl, hrest, hcomponents, fun c hc => hisStep c (List.dropLast_subset _ hc),
    Disk.entry_ok hroot, hread⟩

/-- **The steps of a write**: the root is looked at, directories are made, and in the end the
artifact is placed, if no step before fails. -/
theorem write_split {s : Store} {d d' : Disk} {artifact body : Text} {header : Header}
    {result : Except Failure Unit} (h : s.write d artifact header body = (result, d')) :
    ((∃ f, result = .error f) ∧ d' = d) ∨
      ∃ mode steps last made, s.rootMode d = .ok mode ∧ s.outerSteps artifact = .ok steps ∧
        makeDirs mode d s.root steps = (last, made) ∧
        (((∃ f, result = .error f) ∧ d' = made) ∨
          ∃ dir text, last = .ok dir ∧ header.stamp body = .ok text ∧
            place made dir artifact text mode = .ok d' ∧ result = .ok ()) := by
  unfold write at h
  split at h
  · cases h
    exact .inl ⟨⟨_, rfl⟩, rfl⟩
  · cases h
    exact .inl ⟨⟨_, rfl⟩, rfl⟩
  next mode steps hmode hsteps =>
  refine .inr ⟨mode, steps, ?_⟩
  split at h
  · next hmade =>
    cases h
    exact ⟨_, _, hmode, hsteps, hmade, .inl ⟨⟨_, rfl⟩, rfl⟩⟩
  next dir made hmade =>
  refine ⟨_, made, hmode, hsteps, hmade, ?_⟩
  split at h
  · cases h
    exact .inl ⟨⟨_, rfl⟩, rfl⟩
  next text htext =>
  split at h
  · cases h
    exact .inl ⟨⟨_, rfl⟩, rfl⟩
  next hplace =>
  cases h
  exact .inr ⟨dir, text, rfl, htext, hplace, rfl⟩

/-- An artifact is placed where its path leads. -/
theorem place_ok {d d' : Disk} {dir artifact text : Text} {mode : Nat}
    (h : place d dir artifact text mode = .ok d') :
    ∃ aside, draftPlace d dir = .ok aside ∧ d.moveTarget aside artifact = .ok (d.goal artifact) ∧
      d' = d.put (d.goal artifact) (.file (Text.utf8 text) d.now mode) := by
  unfold place at h
  split at h
  · cases h
  next aside haside =>
  split at h
  · cases h
  next target htarget =>
  cases h
  obtain rfl := (Disk.moveTarget_ok htarget).1
  exact ⟨aside, haside, htarget, rfl⟩

/-- **What writing an artifact does**: nothing; or it makes directories on the way to the artifact;
or it then puts the artifact in its place, where no directory is. -/
theorem write_cases {s : Store} {d d' : Disk} {artifact body : Text} {header : Header}
    {result : Except Failure Unit} (h : s.write d artifact header body = (result, d')) :
    ((∃ f, result = .error f) ∧ d' = d) ∨
      ∃ rest made time mode, relativeTo? s.root artifact = some rest ∧
        components artifact = components s.root ++ components rest ∧
        d.at? (d.goal s.root) = some (.dir time mode) ∧
        d.Paves made (way (d.goal s.root) (components rest).dropLast) ∧
        (((∃ f, result = .error f) ∧ d' = made) ∨
          ∃ aside text, result = .ok () ∧ header.stamp body = .ok text ∧
            (Entry.dir time mode).allows .read = true ∧
            made.moveTarget aside artifact = .ok (d.goal artifact) ∧
            d' = made.put (d.goal artifact) (.file (Text.utf8 text) d.now mode)) := by
  rcases write_split h with
    hnothing | ⟨mode, steps, last, made, hmode, hsteps, hmade, hend⟩
  · exact .inl hnothing
  obtain ⟨rest, time, rfl, hrest, hcomponents, houter, hroot, hread⟩ := outerSteps_ok hmode hsteps
  have hpaves := makeDirs_paves houter hmade
  refine .inr ⟨rest, made, time, mode, hrest, hcomponents, hroot, hpaves, ?_⟩
  rcases hend with hfailed | ⟨dir, text, rfl, htext, hplace, rfl⟩
  · exact .inl hfailed
  · obtain ⟨aside, -, htarget, rfl⟩ := place_ok hplace
    rw [Disk.goal_congr hpaves.here] at htarget ⊢
    exact .inr ⟨aside, text, rfl, htext, hread, htarget, by rw [hpaves.now]⟩

/-! ## Confinement -/

/-- **The way to an artifact stays below the root**: the artifact lies there, and so does every
directory that is missing on the way.  An artifact that starts with another path has no way. -/
def Stays (s : Store) (d : Disk) (artifact : Text) : Prop :=
  ∀ rest, relativeTo? s.root artifact = some rest →
    d.goal s.root <+: d.goal artifact ∧
      ∀ place ∈ way (d.goal s.root) (components rest).dropLast,
        d.at? place = none → d.goal s.root <+: place

/-- **What changes lies below the root**, which itself stays as it is. -/
def Confines (s : Store) (d d' : Disk) : Prop :=
  ∀ place, d'.at? place ≠ d.at? place → Below (d.goal s.root) place

/-- **Nothing escapes from the root**: what changes lies below it, and for an artifact outside of it
nothing is stored, nor anything else changed. -/
def Keeps (s : Store) (d : Disk) (artifact : Text) (stored : Prop) (d' : Disk) : Prop :=
  s.Confines d d' ∧ (¬ d.goal s.root <+: d.goal artifact → ¬ stored ∧ d' = d)

theorem keeps_refl (s : Store) (d : Disk) (artifact : Text) {stored : Prop} (h : ¬ stored) :
    s.Keeps d artifact stored d :=
  ⟨fun _ hchange => absurd rfl hchange, fun _ => ⟨h, rfl⟩⟩

/-- **Nothing escapes along a way that stays below the root.** -/
theorem keeps_of_stays {s : Store} {d d' : Disk} {artifact body : Text} {header : Header}
    {result : Except Failure Unit} (h : s.write d artifact header body = (result, d'))
    (hstays : s.Stays d artifact) : s.Keeps d artifact (result = .ok ()) d' := by
  rcases write_cases h with
    ⟨⟨f, rfl⟩, rfl⟩ | ⟨rest, made, time, mode, hrest, -, hroot, hpaves, hend⟩
  · exact keeps_refl s _ artifact nofun
  obtain ⟨hgoal, hmissing⟩ := hstays rest hrest
  have hmade : s.Confines d made := by
    intro place hchange
    obtain ⟨hmem, hnone, -⟩ := hpaves.made place hchange
    refine ⟨hmissing place hmem hnone, ?_⟩
    rintro rfl
    rw [hroot] at hnone
    cases hnone
  refine ⟨?_, fun houtside => absurd hgoal houtside⟩
  rcases hend with ⟨-, rfl⟩ | ⟨aside, text, -, -, -, htarget, rfl⟩
  · exact hmade
  intro place hchange
  rw [Disk.at?_put] at hchange
  split at hchange
  · next hplace =>
    -- The root is a directory, and so not what the artifact replaces.
    refine hplace ▸ ⟨hgoal, fun heq => ?_⟩
    have hdir := (Disk.moveTarget_ok htarget).2.1
    have hkept : made.at? (d.goal s.root) = d.at? (d.goal s.root) :=
      Decidable.of_not_not fun hne => (hmade _ hne).2 rfl
    rw [heq, hkept, hroot] at hdir
    cases hdir
  · exact hmade place hchange

/-- **An artifact is stored along every directory of its way**, so if nothing escapes, the way stays
below the root. -/
theorem stays_of_keeps {s : Store} {d d' : Disk} {artifact body : Text} {header : Header}
    {stored : Prop} (h : s.write d artifact header body = (.ok (), d')) (hstored : stored)
    (hkeeps : s.Keeps d artifact stored d') : s.Stays d artifact := by
  rcases write_cases h with
    ⟨⟨f, hf⟩, -⟩ | ⟨rest, made, time, mode, hrest, hcomponents, -, hpaves, hend⟩
  · cases hf
  rcases hend with ⟨⟨f, hf⟩, -⟩ | ⟨aside, text, -, -, -, htarget, rfl⟩
  · cases hf
  obtain ⟨-, -, hway, -⟩ := Disk.moveTarget_ok htarget
  intro rest' hrest'
  obtain rfl : rest = rest' := Option.some.inj (hrest.symm.trans hrest')
  refine ⟨?_, fun place hmem hnone => (hkeeps.1 place ?_).1⟩
  · by_cases hgoal : d.goal s.root <+: d.goal artifact
    · exact hgoal
    · exact absurd hstored (hkeeps.2 hgoal).1
  · -- The place is on the way of the whole path, so it is there in the end.
    have hmem' : place ∈ way made.here (components artifact) := by
      rw [hpaves.here, hcomponents, way_append]
      refine List.mem_append_right _ ?_
      obtain ⟨back, hback⟩ := List.dropLast_prefix (components rest)
      rw [← hback, way_append]
      exact List.mem_append_left _ hmem
    rw [hnone, Disk.at?_put]
    split
    · nofun
    · next hother =>
      rcases hway place hmem' with heq | hsome
      · exact absurd heq.symm hother
      · exact fun hmissing => by
          rw [hmissing] at hsome
          cases hsome

/-- **Names behind the root stay below it.** -/
theorem stays_of_names {s : Store} {artifact : Text} (names : List Text) (hne : s.root ≠ [])
    (h : components artifact = components s.root ++ names.map .name) (d : Disk) :
    s.Stays d artifact := by
  intro rest hrest
  have hnames : components rest = names.map .name := by
    rw [(components_of_relativeTo? hne hrest).1] at h
    exact List.append_cancel_left h
  refine ⟨?_, fun place hmem _ => ?_⟩
  · rw [Disk.goal, Disk.goal, h, walk_append, walk_names]
    exact List.prefix_append _ _
  · rw [hnames, ← List.map_dropLast] at hmem
    exact (below_of_mem_way_names hmem).1

/-! ## Refreshing -/

/-- **What refreshing an artifact does**: nothing, as it fails or the artifact is fresh; or it
writes the artifact, and has compiled it exactly if it has stored it. -/
theorem refresh_cases {s : Store} {d d' : Disk} {compile : Text → Except Diagnostic Text}
    {source artifact : Text} {result : Except Diagnostic Bool}
    (h : s.refresh d compile source artifact = (result, d')) :
    ((∃ problem, result = .error problem) ∧ d' = d) ∨
      (result = .ok false ∧ isFresh d source artifact = .ok true ∧ d' = d) ∨
      ∃ header text body stored, Header.ofTemplate d source = .ok header ∧
        d.readText source = .ok text ∧ compile text = .ok body ∧
        s.write d artifact header body = (stored, d') ∧
        result ≠ .ok false ∧ (result = .ok true ↔ stored = .ok ()) := by
  unfold refresh at h
  split at h
  · cases h
    exact .inl ⟨⟨_, rfl⟩, rfl⟩
  · next hfresh =>
    cases h
    exact .inr (.inl ⟨rfl, hfresh, rfl⟩)
  · cases h
    exact .inl ⟨⟨_, rfl⟩, rfl⟩
  next header _ hheader =>
  split at h
  · cases h
    exact .inl ⟨⟨_, rfl⟩, rfl⟩
  next text htext =>
  split at h
  · cases h
    exact .inl ⟨⟨_, rfl⟩, rfl⟩
  next body hbody =>
  refine .inr (.inr ⟨header, text, body, ?_⟩)
  split at h
  · next f made hwrite =>
    cases h
    exact ⟨_, hheader, htext, hbody, hwrite, nofun, nofun, nofun⟩
  · next made hwrite =>
    cases h
    exact ⟨_, hheader, htext, hbody, hwrite, nofun, fun _ => rfl, fun _ => rfl⟩

end Store

namespace Engine

/-- **With checks on, ensuring a template is refreshing its artifact.** -/
theorem refresh_of_ensure {e : Engine} {d d' : Disk} {template : Text}
    {result : Except Diagnostic Outcome} (hcheck : e.config.checkScripts = true)
    (h : e.ensure d template = (result, d')) :
    ∃ refreshed, e.store.refresh d e.compiler.compile (e.templatePath template)
        (e.artifactPath template) = (refreshed, d') ∧
      (result = .ok .compiled ↔ refreshed = .ok true) ∧
      (result = .ok .fresh ↔ refreshed = .ok false) := by
  unfold ensure at h
  simp only [hcheck, if_true] at h
  split at h <;> next hrefresh =>
    cases h
    exact ⟨_, hrefresh, by simp, by simp⟩

/-- **What ensuring a template does**: nothing, or it writes the artifact; and it has compiled the
template exactly if it has stored the artifact. -/
theorem ensure_cases {e : Engine} {d d' : Disk} {template : Text}
    {result : Except Diagnostic Outcome} (h : e.ensure d template = (result, d')) :
    result ≠ .ok .compiled ∧ d' = d ∨
      ∃ header body stored,
        e.store.write d (e.artifactPath template) header body = (stored, d') ∧
          (result = .ok .compiled ↔ stored = .ok ()) := by
  by_cases hcheck : e.config.checkScripts = true
  · obtain ⟨refreshed, hrefresh, hcompiled, -⟩ := refresh_of_ensure hcheck h
    rw [Ne, hcompiled]
    rcases Store.refresh_cases hrefresh with
      ⟨⟨_, rfl⟩, rfl⟩ | ⟨rfl, -, rfl⟩ | ⟨header, _, body, stored, -, -, -, hwrite, -, hstored⟩
    · exact .inl ⟨nofun, rfl⟩
    · exact .inl ⟨nofun, rfl⟩
    · exact .inr ⟨header, body, stored, hwrite, hstored⟩
  · unfold ensure at h
    simp only [hcheck, Bool.false_eq_true, if_false] at h
    split at h <;> cases h <;> exact .inl ⟨nofun, rfl⟩

end Engine

/-- **Storing an artifact is confined to the root exactly if its way stays there**, for every disk,
every path of an artifact and every template: along such a way nothing escapes, also from a call
that fails; and where nothing escapes from a call that stores an artifact, the way stays below the
root. -/
theorem confined_iff_stays (d : Disk) :
    (∀ (s : Store) artifact header body result d',
      s.write d artifact header body = (result, d') →
        (s.Stays d artifact → s.Keeps d artifact (result = .ok ()) d') ∧
          (result = .ok () → s.Keeps d artifact (result = .ok ()) d' → s.Stays d artifact)) ∧
    ∀ (e : Engine) template result d', e.ensure d template = (result, d') →
      (e.store.Stays d (e.artifactPath template) →
        e.store.Keeps d (e.artifactPath template) (result = .ok .compiled) d') ∧
      (result = .ok .compiled →
        e.store.Keeps d (e.artifactPath template) (result = .ok .compiled) d' →
          e.store.Stays d (e.artifactPath template)) := by
  refine ⟨?_, ?_⟩
  · intro s artifact header body result d' h
    refine ⟨Store.keeps_of_stays h, ?_⟩
    rintro rfl hkeeps
    exact Store.stays_of_keeps h rfl hkeeps
  · intro e template result d' h
    rcases Engine.ensure_cases h with ⟨hresult, rfl⟩ | ⟨header, body, stored, hwrite, hstored⟩
    · exact ⟨fun _ => Store.keeps_refl _ _ _ hresult, fun hcompiled => absurd hcompiled hresult⟩
    · refine ⟨fun hstays => ?_, fun hcompiled hkeeps => ?_⟩
      · rw [hstored]
        exact Store.keeps_of_stays hwrite hstays
      · rw [hstored.1 hcompiled] at hwrite
        exact Store.stays_of_keeps hwrite hcompiled hkeeps

/-- The directories `artifacts` and `templates`, with one template. -/
def Disk.sample : Disk where
  entries := [([], .dir 0 0o755), (["artifacts"], .dir 0 0o755), (["templates"], .dir 0 0o755),
    (["templates", "t"], .file (Text.utf8 "x") 0 0o644)]
  here := []
  now := 0

/-- The same disk in another time zone. -/
def Disk.sampleIn (zone : Zone) : Disk := { Disk.sample with zone }

theorem confined_below_root :
    ∃ written ensured,
      Store.write ⟨"artifacts"⟩ .sample "artifacts/a/x.php" ⟨"h"⟩ "x" = (.ok (), written) ∧
        Store.Keeps ⟨"artifacts"⟩ .sample "artifacts/a/x.php"
          ((.ok () : Except Failure Unit) = .ok ()) written ∧
      (Engine.mk .standard).ensure .sample "t" = (.ok .compiled, ensured) ∧
        Store.Keeps ⟨"artifacts"⟩ .sample "artifacts/t.php"
          ((.ok .compiled : Except Diagnostic Outcome) = .ok .compiled) ensured := by
  have hwrite : (Store.write ⟨"artifacts"⟩ .sample "artifacts/a/x.php" ⟨"h"⟩ "x").1 = .ok () := by
    with_unfolding_all rfl
  have hensure : ((Engine.mk .standard).ensure .sample "t").1 = .ok .compiled := by
    with_unfolding_all rfl
  have hbelow : Store.Stays ⟨"artifacts"⟩ .sample "artifacts/a/x.php" :=
    Store.stays_of_names ["a", "x.php"] (by decide) (by decide) _
  have hbeside : Store.Stays ⟨"artifacts"⟩ .sample "artifacts/t.php" :=
    Store.stays_of_names ["t.php"] (by decide) (by decide) _
  exact ⟨_, _, Prod.ext hwrite rfl,
    ((confined_iff_stays _).1 _ _ _ _ _ _ (Prod.ext hwrite rfl)).1 hbelow,
    Prod.ext hensure rfl, ((confined_iff_stays _).2 _ _ _ _ (Prod.ext hensure rfl)).1 hbeside⟩

/-- **A step up leaves the root**: the store accepts `artifacts/../x.php` and writes beside its
root. -/
theorem write_escapes_step_up :
    ∃ d', Store.write ⟨"artifacts"⟩ .sample "artifacts/../x.php" ⟨"h"⟩ "x" = (.ok (), d') ∧
      ¬ Disk.sample.goal "artifacts" <+: ["x.php"] ∧
      d'.at? ["x.php"] ≠ Disk.sample.at? ["x.php"] := by
  have hwrite : (Store.write ⟨"artifacts"⟩ .sample "artifacts/../x.php" ⟨"h"⟩ "x").1 = .ok () := by
    with_unfolding_all rfl
  exact ⟨_, Prod.ext hwrite rfl, by decide, by decide +kernel⟩

end Stencil
