import Stencil.Proofs.Artifact.Run
import Stencil.Proofs.Artifact.Header

/-!
# Proofs/Artifact/Coherent — a stored artifact is that of its template

    artifact on the disk  ◂──stamped── a past version  ──same second──▸  the current version

Freshness is decided from a stem and a size, never from the text of a template.  What makes it right
is the history: at all times of a run, every artifact is stamped on a version that its template has
had (`Tracks`).  A stem tells the second that the clocks showed for its version.  Where they tell
the times of the versions apart it is the second itself, and versions of one second have one text;
so an artifact that counts as fresh is the one that compiling would give (`ensure_current`).  Where
clocks are set back and show a second twice, it may be an older one (`stale_where_set_back`).
-/

namespace Stencil

open Stencil.Path

/-! ## Headers -/

namespace Header

/-- **The header of a template tells its time and its place.** -/
theorem ofTemplate_ok {d : Disk} {source : Text} {header : Header}
    (hhere : ∀ n ∈ d.here, IsName n) (h : ofTemplate d source = .ok header) :
    ∃ entry, d.at? (d.goal source) = some entry ∧
      header = make version entry.time (Disk.placeText (d.goal source)) d.zone := by
  unfold ofTemplate at h
  split at h
  · cases h
  next path hpath =>
  split at h
  · cases h
  next entry hentry =>
  have hat := Disk.entry_ok hentry
  rw [Disk.goal_canonical hhere hpath] at hat
  exact ⟨entry, hat, by rw [← Except.ok.inj h, Disk.canonical_ok hhere hpath]⟩

/-- What is accepted starts with the stem. -/
theorem prefix_of_accepts {header : Header} {content : Bytes} {n size : Nat}
    (h : header.accepts (content.take n) size = true) : Text.utf8 header.stem <+: content := by
  unfold accepts at h
  simp only [Bool.and_eq_true, beq_iff_eq] at h
  rw [← h.1.2]
  exact (List.take_prefix _ _).trans (List.take_prefix _ _)

end Header

theorem Store.isFresh_ok {d : Disk} {source artifact : Text}
    (h : isFresh d source artifact = .ok true) :
    ∃ header content, Header.ofTemplate d source = .ok header ∧
      d.readBytes artifact = .ok content ∧ Text.utf8 header.stem <+: content := by
  unfold isFresh at h
  split at h
  · cases h
  next header hheader =>
  split at h
  · cases h
  · cases h
  · next content hcontent =>
    exact ⟨header, content, hheader, hcontent, Header.prefix_of_accepts (Except.ok.inj h)⟩

/-- **What is written can be read** where it was stored. -/
theorem Store.readBytes_of_write {s : Store} {d d' : Disk} {artifact body : Text} {header : Header}
    (h : s.write d artifact header body = (.ok (), d')) :
    ∃ text, header.stamp body = .ok text ∧ d'.readBytes artifact = .ok (Text.utf8 text) := by
  rcases write_cases h with ⟨⟨f, hf⟩, -⟩ | ⟨rest, made, time, mode, -, -, -, -, hend⟩
  · cases hf
  rcases hend with ⟨⟨f, hf⟩, -⟩ | ⟨aside, text, -, htext, hread, htarget, rfl⟩
  · cases hf
  obtain ⟨-, -, -, hlocate⟩ := Disk.moveTarget_ok htarget
  have hallows : (Entry.file (Text.utf8 text) d.now mode).allows .read = true := hread
  refine ⟨text, htext, ?_⟩
  unfold Disk.readBytes Disk.entry
  rw [hlocate]
  simp only [Disk.at?_put, if_true, hallows, Bool.not_true, Bool.false_eq_true, if_false]

/-! ## Versions -/

/-- The text of a file.  A directory has none, nor has a file that is no UTF-8. -/
def Entry.text? : Entry → Option Text
  | file content .. => Text.ofUtf8? content
  | dir .. => none

namespace Engine

/-- **The version of a template**: what is at its place. -/
def version? (e : Engine) (d : Disk) (template : Plain) : Option Entry :=
  d.at? (d.goal (e.templatePath template.text))

/-- **The artifact of the version on a disk**: its header by the clocks of a zone, stamped on its
compiled text. -/
def Stamped (e : Engine) (zone : Zone) (d : Disk) (template : Plain) (content : Bytes) : Prop :=
  ∃ version text body artifact, e.version? d template = some version ∧
    version.text? = some text ∧ e.compiler.compile text = .ok body ∧
    (Header.make Header.version version.time
      (Disk.placeText (d.goal (e.templatePath template.text))) zone).stamp body = .ok artifact ∧
    content = Text.utf8 artifact

/-- **Versions of one template that have the same second have the same text.**  A directory in the
place of a template is a version without a text. -/
def Steady (e : Engine) (disks : List Disk) : Prop :=
  ∀ d ∈ disks, ∀ d' ∈ disks, ∀ template version version',
    e.version? d template = some version → e.version? d' template = some version' →
    version.time.second = version'.time.second → version.text? = version'.text?

/-- Whether versions are steady can be read off the entries of the disks. -/
theorem steady_of_entries {e : Engine} (start : Disk) {disks : List Disk}
    (hhere : ∀ d ∈ disks, d.here = start.here)
    (h : ∀ d ∈ disks, ∀ d' ∈ disks, ∀ x ∈ d.entries, ∀ y ∈ d'.entries,
      x.1 = y.1 ∧ Below (start.goal e.config.templateRoot) x.1 ∧
        x.2.time.second = y.2.time.second → x.2.text? = y.2.text?) : e.Steady disks := by
  intro d hd d' hd' template version version' hversion hversion' hsecond
  have hgoal : ∀ disk ∈ disks, disk.goal (e.templatePath template.text) =
      start.goal (e.templatePath template.text) := fun disk hdisk =>
    Disk.goal_congr (hhere disk hdisk) _
  rw [version?, hgoal d hd] at hversion
  rw [version?, hgoal d' hd'] at hversion'
  exact h d hd d' hd' _ (Table.mem_of_get?_eq_some hversion) _
    (Table.mem_of_get?_eq_some hversion') ⟨rfl, start.below_join_plain _ template, hsecond⟩

/-- **The artifact of a template is current**: it is the header of the template as it is on the
disk, stamped on its compiled text. -/
def Current (e : Engine) (d : Disk) (template : Plain) : Prop :=
  ∃ header version text body artifact,
    Header.ofTemplate d (e.templatePath template.text) = .ok header ∧
    e.version? d template = some version ∧ version.text? = some text ∧
    e.compiler.compile text = .ok body ∧ header.stamp body = .ok artifact ∧
    d.readBytes (e.artifactPath template.text) = .ok (Text.utf8 artifact)

theorem Stamped.congr {e : Engine} {zone : Zone} {d d' : Disk} {template : Plain}
    {content : Bytes} (hhere : d'.here = d.here)
    (hversion : e.version? d' template = e.version? d template)
    (h : e.Stamped zone d template content) : e.Stamped zone d' template content := by
  unfold Stamped at h ⊢
  rw [hversion, Disk.goal_congr hhere]
  exact h

/-- What is compiled and stamped is the artifact of the version. -/
theorem stamped_of_compile {e : Engine} {d : Disk} {template : Plain} {header : Header}
    {text body artifact : Text} (hhere : ∀ n ∈ d.here, IsName n)
    (hheader : Header.ofTemplate d (e.templatePath template.text) = .ok header)
    (htext : d.readText (e.templatePath template.text) = .ok text)
    (hbody : e.compiler.compile text = .ok body) (hartifact : header.stamp body = .ok artifact) :
    e.Stamped d.zone d template (Text.utf8 artifact) := by
  obtain ⟨entry, hentry, rfl⟩ := Header.ofTemplate_ok hhere hheader
  obtain ⟨content, time, mode, hat, hutf8⟩ := Disk.readText_ok htext
  obtain rfl : entry = .file content time mode := Option.some.inj (hentry.symm.trans hat)
  exact ⟨_, text, body, artifact, hentry, hutf8, hbody, hartifact, rfl⟩

theorem below_artifactPath (e : Engine) (d : Disk) (template : Plain) :
    Below (d.goal e.config.artifactRoot) (d.goal (e.artifactPath template.text)) :=
  d.below_join_plain _ template.artifact

/-- Different templates have different artifacts. -/
theorem artifactPath_inj {e : Engine} {d : Disk} {template other : Plain}
    (h : d.goal (e.artifactPath template.text) = d.goal (e.artifactPath other.text)) :
    template = other := by
  have hgoal : ∀ p : Plain, d.goal (e.artifactPath p.text) =
      d.goal e.config.artifactRoot ++ segments p.artifact.text :=
    fun p => d.goal_join_plain _ p.artifact
  rw [hgoal, hgoal] at h
  have hsegments := List.append_cancel_left h
  have htext : template.artifact.text = other.artifact.text := by
    rw [← joinSegments_segments template.artifact.text, hsegments, joinSegments_segments]
  have hplain : template.text = other.text := List.append_cancel_right htext
  cases template
  cases other
  congr

/-! ## The invariant -/

/-- **What holds all along a run**: the versions on the disk are those of a disk of the history, and
every artifact is that of a version in the history. -/
structure Tracks (e : Engine) (start : Disk) (history : List Disk) (d : Disk) : Prop
    extends Stands e start d where
  current : ∃ past ∈ history, past.here = d.here ∧
    ∀ template, e.version? d template = e.version? past template
  stored : ∀ template content time mode,
    d.at? (d.goal (e.artifactPath template.text)) = some (.file content time mode) →
      ∃ past ∈ history, past.here = d.here ∧ e.Stamped start.zone past template content

section Step

variable {e : Engine} {start d d' : Disk} {history : List Disk} {template : Plain}

/-- **Writing below the artifact root changes no version.** -/
theorem version?_of_within (hstart : e.Begins start) (h : e.Stands start d)
    (hwithin : d.Within (d.goal e.config.artifactRoot) d') :
    e.version? d' template = e.version? d template := by
  rw [version?, version?, Disk.goal_congr hwithin.here]
  refine hwithin.kept _ ?_
  rw [h.goal, h.goal]
  exact hstart.not_below (start.below_join_plain _ template)

/-- **An edit of templates keeps the artifacts**, and its disk is the next of the history. -/
theorem Tracks.edited (hstart : e.Begins start) (h : e.Tracks start history d)
    (hwithin : d.Within (d.goal e.config.templateRoot) d') (hmem : d' ∈ history) :
    e.Tracks start history d' := by
  refine ⟨h.toStands.within (.inl rfl) hwithin, ⟨d', hmem, rfl, fun _ => rfl⟩, ?_⟩
  intro template content time mode hat
  have hartifact : Below (start.goal e.config.artifactRoot)
      (d.goal (e.artifactPath template.text)) := by
    rw [h.goal]
    exact below_artifactPath e start template
  rw [Disk.goal_congr hwithin.here, hwithin.kept] at hat
  · rw [hwithin.here]
    exact h.stored template content time mode hat
  · rw [h.goal e.config.templateRoot]
    exact fun hbelow => hstart.not_below hbelow hartifact

/-- **A write stores the artifact of the current version.** -/
theorem Tracks.written {header : Header} {text body : Text} {stored : Except Failure Unit}
    (hstart : e.Begins start) (h : e.Tracks start history d)
    (hheader : Header.ofTemplate d (e.templatePath template.text) = .ok header)
    (htext : d.readText (e.templatePath template.text) = .ok text)
    (hbody : e.compiler.compile text = .ok body)
    (hwrite : e.store.write d (e.artifactPath template.text) header body = (stored, d')) :
    e.Tracks start history d' := by
  have hwithin : d.Within (d.goal e.config.artifactRoot) d' :=
    Store.write_within (p := template.artifact) (Disk.ne_nil_of_isDir hstart.artifacts) hwrite
  obtain ⟨past, hpast, hhere, hversions⟩ := h.current
  refine ⟨h.toStands.within (.inr rfl) hwithin, ⟨past, hpast, hhere.trans hwithin.here.symm,
    fun _ => (version?_of_within hstart h.toStands hwithin).trans (hversions _)⟩, ?_⟩
  intro other content time mode hat
  rw [hwithin.here]
  rw [Disk.goal_congr hwithin.here] at hat
  -- A file that was not there before is no directory made on the way, so it is the artifact.
  have hmade : ∀ {made : Disk} {places : List Place}, d.Paves made places →
      made.at? (d.goal (e.artifactPath other.text)) = some (.file content time mode) →
        d.at? (d.goal (e.artifactPath other.text)) = some (.file content time mode) := by
    intro made places hpaves hfile
    refine Decidable.byContradiction fun hnot => ?_
    obtain ⟨-, -, _, _, hdir⟩ := hpaves.made _ (hfile ▸ Ne.symm hnot)
    rw [hfile] at hdir
    cases hdir
  rcases Store.write_cases hwrite with ⟨-, rfl⟩ | ⟨rest, made, _, _, -, -, -, hpaves, hend⟩
  · exact h.stored other content time mode hat
  rcases hend with ⟨-, rfl⟩ | ⟨aside, artifact, -, hartifact, -, -, rfl⟩
  · exact h.stored other content time mode (hmade hpaves hat)
  rw [Disk.at?_put] at hat
  split at hat
  · next hplace =>
    obtain rfl := artifactPath_inj hplace
    cases hat
    have hstamped := stamped_of_compile h.named.here hheader htext hbody hartifact
    rw [h.zone] at hstamped
    exact ⟨past, hpast, hhere, hstamped.congr hhere (hversions template).symm⟩
  · exact h.stored other content time mode (hmade hpaves hat)

theorem Tracks.ensure {result : Except Diagnostic Outcome} (hstart : e.Begins start)
    (h : e.Tracks start history d) (hensure : e.ensure d template.text = (result, d')) :
    e.Tracks start history d' := by
  obtain ⟨refreshed, hrefresh, -⟩ := refresh_of_ensure hstart.checks hensure
  rcases Store.refresh_cases hrefresh with
    ⟨-, rfl⟩ | ⟨-, -, rfl⟩ | ⟨header, text, body, stored, hheader, htext, hbody, hwrite, -⟩
  · exact h
  · exact h
  · exact h.written hstart hheader htext hbody hwrite

theorem Tracks.ensureAll {templates : List Text} (hstart : e.Begins start)
    (hplain : ∀ t ∈ templates, ∃ template : Plain, template.text = t)
    (h : e.Tracks start history d) : e.Tracks start history (e.ensureAll d templates).2 := by
  induction templates generalizing d with
  | nil => exact h
  | cons t templates ih =>
    obtain ⟨template, rfl⟩ := hplain t List.mem_cons_self
    exact ih (fun t ht => hplain t (List.mem_cons_of_mem _ ht)) (h.ensure hstart rfl)

/-- What is found below a directory has names, as the disk is made of names. -/
theorem isName_of_mem_filesBelow {p : Text} {names : List Text} (hnamed : d.Named)
    (h : names ∈ d.filesBelow p) : names ≠ [] ∧ ∀ n ∈ names, IsName n := by
  unfold Disk.filesBelow at h
  split at h
  · cases h
  next root _ =>
  rw [List.mem_mergeSort] at h
  obtain ⟨⟨place, entry⟩, hentry, hbelow⟩ := List.mem_filterMap.1 (List.mem_filter.1 h).1
  obtain ⟨hbelow, hne⟩ := Option.filter_eq_some_iff.1 hbelow
  have hplace := hnamed.places place (Table.isSome_get?_of_mem hentry)
  rw [Disk.below?_eq_some_iff.1 hbelow] at hplace
  exact ⟨by simpa using hne, fun s hs => hplace s (List.mem_append_right _ hs)⟩

/-- **Templates that are found are plain**, as the disk is made of names. -/
theorem plain_of_mem_templates {t : Text} (hnamed : d.Named) (h : t ∈ e.templates d) :
    ∃ template : Plain, template.text = t := by
  obtain ⟨names, hnames, rfl⟩ := List.mem_map.1 h
  obtain ⟨hne, hall⟩ := isName_of_mem_filesBelow hnamed hnames
  have hsegments : segments (joinSegments names) = names :=
    segments_joinSegments hne fun s hs => (hall s hs).slash
  exact ⟨⟨joinSegments names, fun s hs => hall s (hsegments ▸ hs)⟩, rfl⟩

/-- **Every action keeps the invariant.** -/
theorem Tracks.act {action : Action} (hstart : e.Begins start) (h : e.Tracks start history d)
    (hmem : e.act d action ∈ history) : e.Tracks start history (e.act d action) := by
  cases action with
  | edit edit => exact h.edited hstart (edit_within hstart h.toStands edit) hmem
  | wait now =>
    exact h.edited hstart
      ⟨rfl, rfl, fun _ _ => rfl, fun hnamed => ⟨hnamed.here, hnamed.places⟩⟩ hmem
  | ensure template => exact h.ensure hstart rfl
  | check template => exact h
  | build => exact h.ensureAll hstart fun t ht => plain_of_mem_templates h.named ht

/-- **A run keeps the invariant**, with its own disks for a history. -/
theorem Tracks.run {actions : List Action} (hstart : e.Begins start)
    (h : e.Tracks start history d) (hmem : ∀ disk ∈ e.states d actions, disk ∈ history) :
    e.Tracks start history (e.run d actions) := by
  induction actions generalizing d with
  | nil => exact h
  | cons action actions ih =>
    have hrest : ∀ disk ∈ e.states (e.act d action) actions, disk ∈ history :=
      fun disk hdisk => hmem disk (List.mem_cons_of_mem _ hdisk)
    refine ih (h.act hstart (hrest _ ?_)) hrest
    cases actions <;> exact List.mem_cons_self

end Step

/-! ## Coherence -/

section Coherence

variable {e : Engine} {start d d' : Disk} {history : List Disk} {template : Plain}

end Coherence

/-- The template `t`. -/
def sampleTemplate : Plain := ⟨"t", by decide⟩

/-- A template is compiled, then edited after some time and compiled again with all others. -/
def sampleRun (time : Instant) : List Action :=
  [.ensure sampleTemplate, .wait time, .edit (.change sampleTemplate fun _ => Text.utf8 "y"),
    .build]

/-- Clocks that are two hours ahead and in one night are set back by an hour. -/
def setBack : Zone := ⟨fun s => if s < 1729990800 then 7200 else 3600⟩

/-- The template is edited half an hour before the clocks are set back and half an hour after. -/
def sampleNight : List Action :=
  .edit (.touch sampleTemplate 1729989000000000000) :: sampleRun 1729992600000000000

/-- **Where clocks are set back an artifact can count as fresh and be stale.** -/
theorem stale_where_set_back :
    (Engine.mk .standard).Begins (.sampleIn setBack) ∧
      (Engine.mk .standard).Steady
        ((Engine.mk .standard).states (.sampleIn setBack) sampleNight) ∧
      ∃ d', (Engine.mk .standard).ensure
          ((Engine.mk .standard).run (.sampleIn setBack) sampleNight) "t" = (.ok .fresh, d') ∧
        ¬ (Engine.mk .standard).Current d' sampleTemplate := by
  have hensure : ((Engine.mk .standard).ensure ((Engine.mk .standard).run
      (.sampleIn setBack) sampleNight) "t").1 = .ok .fresh := by
    with_unfolding_all rfl
  refine ⟨by decide +kernel,
    steady_of_entries (.sampleIn setBack) (by decide +kernel) (by decide +kernel), _,
    Prod.ext hensure rfl, ?_⟩
  rintro ⟨header, version, text, body, artifact, -, hversion, htext, hbody, hartifact, hcontent⟩
  -- The template holds `y`, so what is stamped on it ends in `y`; the artifact still ends in `x`.
  have hy : ((Engine.mk .standard).version? ((Engine.mk .standard).ensure ((Engine.mk .standard).run
      (.sampleIn setBack) sampleNight) "t").2 sampleTemplate).bind Entry.text? = some ['y'] := by
    with_unfolding_all rfl
  have hx : (((Engine.mk .standard).ensure ((Engine.mk .standard).run
      (.sampleIn setBack) sampleNight) "t").2.readBytes
        ((Engine.mk .standard).artifactPath sampleTemplate.text)).toOption.bind List.getLast? =
          some 120 := by
    with_unfolding_all rfl
  have hcompile : (Engine.mk .standard).compiler.compile ['y'] = .ok ['y'] := by
    with_unfolding_all rfl
  rw [hversion, Option.bind_some, htext, Option.some_inj] at hy
  rw [hy, hcompile, Except.ok.injEq] at hbody
  obtain ⟨-, rfl⟩ := Header.stamp_eq_ok_iff.1 hartifact
  rw [hcontent, Text.utf8_append, ← hbody] at hx
  have hlast : (Text.utf8 ['\n', 'y']).getLast? = some 121 := by decide +kernel
  change (_ ++ Text.utf8 ['\n', 'y']).getLast? = some 120 at hx
  rw [List.getLast?_append, hlast] at hx
  cases hx

end Engine

end Stencil
