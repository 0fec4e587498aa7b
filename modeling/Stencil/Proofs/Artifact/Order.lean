import Stencil.Proofs.Artifact.Clash

/-!
# Proofs/Artifact/Order — templates in any order

    d ──a──▸ · ──b──▸ y          y holds what `a` alone and `b` alone have changed
    d ──b──▸ · ──a──▸ y'         so does y'

Where no templates clash (`Clear`), each one comes to the same as it does alone on the disk where
all begin, whatever has been ensured before it (`Merged.ensure`).  The disk in the end holds the
changes that the templates make alone, which agree where they meet (`Clear.agree`); so it does not
tell their order (`ensureAll_order`).  Two templates that clash do tell it
(`ensureAll_order_clash`).
-/

namespace Stencil

open Stencil.Path

namespace Engine

/-- **Templates that are clear of each other**: where the artifact of one lies below that of
another, the compiler refuses both; and one that it refuses is crowded by none that it takes. -/
structure Clear (e : Engine) (d : Disk) : Prop where
  nests : ∀ t ∈ e.templates d, ∀ t' ∈ e.templates d, e.Nests d t t' →
    e.Refuses d t ∧ e.Refuses d t'
  crowds : ∀ t ∈ e.templates d, ∀ t' ∈ e.templates d, e.Crowds d t t' →
    e.Refuses d t' → e.Refuses d t

/-- **A disk that holds what templates change alone**, each on the disk where all begin. -/
structure Merged (e : Engine) (d : Disk) (done : List Text) (y : Disk) : Prop where
  grows : e.store.Grows (e.Artifacts d done) d y
  same : ∀ t ∈ done, ∀ place, (e.ensure d t).2.at? place ≠ d.at? place →
    y.at? place = (e.ensure d t).2.at? place
  other : ∀ place, (∀ t ∈ done, (e.ensure d t).2.at? place = d.at? place) →
    y.at? place = d.at? place

theorem merged_nil (e : Engine) (d : Disk) : e.Merged d [] d :=
  ⟨.refl, nofun, fun _ _ => rfl⟩

section Order

variable {e : Engine} {d y y' : Disk} {done order order' : List Text} {p q : Plain}

/-- **Where two templates change the same place, they leave the same there**: a directory that leads
to both artifacts. -/
theorem Clear.agree (hclear : e.Clear d) (h : e.Ready d) (hp : p.text ∈ e.templates d)
    (hq : q.text ∈ e.templates d) (hne : p ≠ q) {place : Place}
    (hchange : (e.ensure d p.text).2.at? place ≠ d.at? place)
    (hchange' : (e.ensure d q.text).2.at? place ≠ d.at? place) :
    (e.ensure d p.text).2.at? place = (e.ensure d q.text).2.at? place := by
  have hgrows : e.store.Grows (e.Artifacts d [p.text]) d (e.ensure d p.text).2 :=
    h.ensure_grows_taken (merged_nil e d).grows List.mem_cons_self rfl
  have hgrows' : e.store.Grows (e.Artifacts d [q.text]) d (e.ensure d q.text).2 :=
    h.ensure_grows_taken (merged_nil e d).grows List.mem_cons_self rfl
  obtain ⟨mode, entry, hserves, -, -, hentry, hadds⟩ := hgrows.changed hchange
  obtain ⟨mode', entry', hserves', -, -, hentry', hadds'⟩ := hgrows'.changed hchange'
  obtain rfl : mode = mode' := (hserves.before h.artifacts hgrows.extends).mode_eq
    (hserves'.before h.artifacts hgrows'.extends)
  rw [hentry, hentry']
  cases hadds with
  | dir hnone hleads =>
    obtain ⟨_, ⟨_, hmem, htaken, rfl⟩, hleads⟩ := hleads
    obtain rfl := List.mem_singleton.1 hmem
    cases hadds' with
    | dir => rfl
    | file _ hplace =>
      obtain ⟨_, hmem', htaken', rfl⟩ := hplace
      obtain rfl := List.mem_singleton.1 hmem'
      exact absurd (hclear.nests _ hq _ hp ⟨hnone, hleads⟩).1 htaken'
  | file _ hplace =>
    obtain ⟨_, hmem, htaken, rfl⟩ := hplace
    obtain rfl := List.mem_singleton.1 hmem
    cases hadds' with
    | dir hnone hleads =>
      obtain ⟨_, ⟨_, hmem', htaken', rfl⟩, hleads⟩ := hleads
      obtain rfl := List.mem_singleton.1 hmem'
      exact absurd (hclear.nests _ hp _ hq ⟨hnone, hleads⟩).1 htaken
    | file _ hplace =>
      obtain ⟨_, hmem', -, hplace⟩ := hplace
      obtain rfl := List.mem_singleton.1 hmem'
      exact absurd (artifactPath_inj hplace) hne

/-- **The changes of one more template.** -/
theorem Merged.next (h : e.Merged d done y) (hready : e.Ready d) (hproper : d.Proper)
    (hclear : e.Clear d) (hdone : ∀ t ∈ done, t ∈ e.templates d) (hp : p.text ∈ e.templates d)
    (hnew : p.text ∉ done) (hgrows : e.store.Grows (e.Artifacts d (p.text :: done)) d y')
    (hpatched : Disk.Patched d (e.ensure d p.text).2 y y') : e.Merged d (p.text :: done) y' := by
  refine ⟨hgrows, fun t ht place hchange => ?_, fun place hsame => ?_⟩
  · rcases List.mem_cons.1 ht with rfl | ht
    · exact hpatched.same place hchange
    by_cases hmine : (e.ensure d p.text).2.at? place = d.at? place
    · rw [hpatched.other place hmine, h.same t ht place hchange]
    · rw [hpatched.same place hmine]
      obtain ⟨q, rfl⟩ := plain_of_mem_templates hproper.named (hdone t ht)
      refine hclear.agree hready hp (hdone _ ht) ?_ hmine hchange
      rintro rfl
      exact hnew ht
  · rw [hpatched.other place (hsame _ List.mem_cons_self),
      h.other place fun t ht => hsame t (List.mem_cons_of_mem _ ht)]

/-- **One more template**: it comes to the same as alone, and so does what it changes. -/
theorem Merged.ensure (h : e.Merged d done y) (hready : e.Ready d) (hproper : d.Proper)
    (hclear : e.Clear d) (hdone : ∀ t ∈ done, t ∈ e.templates d) (hp : p.text ∈ e.templates d)
    (hnew : p.text ∉ done) :
    verdict (e.ensure y p.text).1 = verdict (e.ensure d p.text).1 ∧
      e.Merged d (p.text :: done) (e.ensure y p.text).2 := by
  have hgrows : e.store.Grows (e.Artifacts d (p.text :: done)) d (e.ensure y p.text).2 :=
    (h.grows.mono fun _ => .cons _).trans
      (hready.ensure_grows_taken h.grows List.mem_cons_self rfl)
  have hself := noNewFile_of_new
    (fun t ht => plain_of_mem_templates hproper.named (hdone t ht)) h.grows hnew
  rcases hready.ensure_later h.grows hself (rfl : e.ensure d p.text = _) with
    ⟨result, y', hensure, hverdict, hpatched⟩ | ⟨hhinders, hstale, result, hensure, hverdict⟩
  · rw [hensure] at hgrows ⊢
    exact ⟨hverdict, h.next hready hproper hclear hdone hp hnew hgrows hpatched⟩
  · rw [hensure] at hgrows ⊢
    obtain ⟨t, ht, htaken, hnests | hnests | ⟨hcrowds, hcramps⟩⟩ :=
      hindered_by (.refl d) h.grows hhinders
    · exact absurd (hclear.nests t (hdone t ht) _ hp hnests).1 htaken
    · exact absurd (hclear.nests _ hp t (hdone t ht) hnests).2 htaken
    · have hmine : ¬ e.Refuses d p.text := fun hrefuses =>
        htaken (hclear.crowds t (hdone t ht) _ hp hcrowds hrefuses)
      refine ⟨hverdict.trans (hready.verdict_of_cramps h.grows hcramps hstale hmine rfl).symm,
        h.next hready hproper hclear hdone hp hnew hgrows
          (hready.patched_of_cramps h.grows hcramps rfl)⟩

/-- **Templates one after the other** come to the same as each alone. -/
theorem Merged.ensureAll (h : e.Merged d done y) (hready : e.Ready d) (hproper : d.Proper)
    (hclear : e.Clear d) (hdone : ∀ t ∈ done, t ∈ e.templates d)
    (horder : ∀ t ∈ order, t ∈ e.templates d) (hnodup : order.Nodup)
    (hnew : ∀ t ∈ order, t ∉ done) :
    e.verdicts y order = order.map (fun t => (t, verdict (e.ensure d t).1)) ∧
      e.Merged d (order.reverse ++ done) (e.ensureAll y order).2 := by
  induction order generalizing done y with
  | nil => exact ⟨rfl, h⟩
  | cons t order ih =>
    obtain ⟨p, rfl⟩ := plain_of_mem_templates hproper.named (horder t List.mem_cons_self)
    obtain ⟨hnot, hnodup⟩ := List.nodup_cons.1 hnodup
    obtain ⟨hverdict, hmerged⟩ := h.ensure hready hproper hclear hdone
      (horder _ List.mem_cons_self) (hnew _ List.mem_cons_self)
    have hdone' : ∀ t ∈ p.text :: done, t ∈ e.templates d := by
      rintro t (_ | ⟨_, ht⟩)
      · exact horder _ List.mem_cons_self
      · exact hdone t ht
    have hnew' : ∀ t ∈ order, t ∉ p.text :: done := by
      rintro t ht (_ | ⟨_, hmem⟩)
      · exact hnot ht
      · exact hnew t (List.mem_cons_of_mem _ ht) hmem
    obtain ⟨hverdicts, hlast⟩ := ih hmerged hdone'
      (fun t ht => horder t (List.mem_cons_of_mem _ ht)) hnodup hnew'
    rw [verdicts_cons, hverdict, hverdicts, List.reverse_cons, List.append_assoc]
    exact ⟨rfl, hlast⟩

/-- **The order of templates does not matter** where none clash: each comes to the same, and the
disk in the end has the same files and directories. -/
theorem ensureAll_order (hready : e.Ready d) (hproper : d.Proper) (hclear : e.Clear d)
    (horder : order.Perm (e.templates d)) (horder' : order'.Perm (e.templates d)) :
    (e.verdicts d order).Perm (e.verdicts d order') ∧
      ∀ place, (e.ensureAll d order).2.at? place = (e.ensureAll d order').2.at? place := by
  have hnodup := e.nodup_templates hproper
  obtain ⟨hverdicts, hmerged⟩ := (merged_nil e d).ensureAll hready hproper hclear nofun
    (fun t ht => horder.mem_iff.1 ht) (horder.nodup_iff.2 hnodup) nofun
  obtain ⟨hverdicts', hmerged'⟩ := (merged_nil e d).ensureAll hready hproper hclear nofun
    (fun t ht => horder'.mem_iff.1 ht) (horder'.nodup_iff.2 hnodup) nofun
  have hmem : ∀ t, t ∈ order.reverse ++ [] ↔ t ∈ order'.reverse ++ [] := by
    intro t
    rw [List.append_nil, List.append_nil, List.mem_reverse, List.mem_reverse, horder.mem_iff,
      horder'.mem_iff]
  refine ⟨?_, fun place => ?_⟩
  · rw [hverdicts, hverdicts']
    exact (horder.trans horder'.symm).map _
  · by_cases hsame : ∀ t ∈ order.reverse ++ [], (e.ensure d t).2.at? place = d.at? place
    · rw [hmerged.other place hsame, hmerged'.other place fun t ht => hsame t ((hmem t).2 ht)]
    · obtain ⟨t, hsame⟩ := not_forall.1 hsame
      obtain ⟨ht, hchange⟩ := not_forall.1 hsame
      rw [hmerged.same t ht place hchange, hmerged'.same t ((hmem t).1 ht) place hchange]

end Order

end Engine

/-- Templates that share a directory, of which the compiler refuses one, and one beside it. -/
def Disk.shared : Disk where
  entries := [([], .dir 0 0o755), (["artifacts"], .dir 0 0o755), (["templates"], .dir 0 0o755),
    (["templates", "t"], .file (Text.utf8 "z") 0 0o644),
    (["templates", "u"], .dir 0 0o755),
    (["templates", "u", "a"], .file (Text.utf8 "x") 0 0o644),
    (["templates", "u", "b"], .file (Text.utf8 "[= ]") 0 0o644)]
  here := []
  now := 0

/-- Two templates, of which one is in a directory that has the name of the artifact of the other. -/
def Disk.nested : Disk where
  entries := [([], .dir 0 0o755), (["artifacts"], .dir 0 0o755), (["templates"], .dir 0 0o755),
    (["templates", "a"], .file (Text.utf8 "x") 0 0o644),
    (["templates", "a.php"], .dir 0 0o755),
    (["templates", "a.php", "b"], .file (Text.utf8 "y") 0 0o644)]
  here := []
  now := 0

/-- Two templates, of which the compiler refuses one whose name leaves no room for an extension. -/
def Disk.crowded : Disk where
  entries := [([], .dir 0 0o755), (["artifacts"], .dir 0 0o755), (["templates"], .dir 0 0o755),
    (["templates", "u"], .dir 0 0o755),
    (["templates", "u", "a"], .file (Text.utf8 "x") 0 0o644),
    (["templates", "u", List.replicate 255 'b'], .file (Text.utf8 "[= ]") 0 0o644)]
  here := []
  now := 0

namespace Engine

theorem templates_shared : (Engine.mk .standard).templates .shared =
    (["t", "u/a", "u/b"] : List Text) :=
  templates_of_sorted ["templates"] [["t"], ["u", "a"], ["u", "b"]]
    (by with_unfolding_all rfl) (by decide +kernel) (by decide +kernel)

theorem templates_nested : (Engine.mk .standard).templates .nested =
    (["a", "a.php/b"] : List Text) :=
  templates_of_sorted ["templates"] [["a"], ["a.php", "b"]]
    (by with_unfolding_all rfl) (by decide +kernel) (by decide +kernel)

/-- Two templates make the same directory, and the third fails in either order. -/
theorem ensureAll_order_shared :
    (Engine.mk .standard).verdicts .shared ["t", "u/a", "u/b"] =
        [(("t" : Text), .ok .compiled), (("u/a" : Text), .ok .compiled),
          (("u/b" : Text), .error .missingExpression)] ∧
      ((Engine.mk .standard).verdicts .shared ["t", "u/a", "u/b"]).Perm
        ((Engine.mk .standard).verdicts .shared ["u/b", "u/a", "t"]) ∧
      ∀ place, ((Engine.mk .standard).ensureAll .shared ["t", "u/a", "u/b"]).2.at? place =
        ((Engine.mk .standard).ensureAll .shared ["u/b", "u/a", "t"]).2.at? place := by
  have hnames : ∀ t ∈ (Engine.mk .standard).templates .shared,
      ∀ n ∈ Disk.shared.goal ((Engine.mk .standard).artifactPath t), n.size ≤ Disk.maxName := by
    rw [templates_shared]
    decide +kernel
  have hclear : (Engine.mk .standard).Clear .shared :=
    ⟨by rw [templates_shared]; decide +kernel,
      fun t _ t' ht' h => absurd h (not_crowds (hnames t' ht') t)⟩
  refine ⟨by with_unfolding_all rfl,
    ensureAll_order (by decide +kernel) (by decide +kernel) hclear ?_ ?_⟩
  · rw [templates_shared]
  · rw [templates_shared]
    decide +kernel

/-- **Templates that clash tell their order**: the artifact of `a` is a file where that of `a.php/b`
needs a directory, so whichever comes first is compiled, and the other fails. -/
theorem ensureAll_order_clash :
    (Engine.mk .standard).Ready .nested ∧ Disk.nested.Proper ∧
      (["a", "a.php/b"] : List Text).Perm ((Engine.mk .standard).templates .nested) ∧
      (["a.php/b", "a"] : List Text).Perm ((Engine.mk .standard).templates .nested) ∧
      ¬ ((Engine.mk .standard).verdicts .nested ["a", "a.php/b"]).Perm
        ((Engine.mk .standard).verdicts .nested ["a.php/b", "a"]) ∧
      ((Engine.mk .standard).ensureAll .nested ["a", "a.php/b"]).2.at? ["artifacts", "a.php"] ≠
        ((Engine.mk .standard).ensureAll .nested ["a.php/b", "a"]).2.at?
          ["artifacts", "a.php"] := by
  have hfirst : (Engine.mk .standard).verdicts .nested ["a", "a.php/b"] =
      [(("a" : Text), .ok .compiled), (("a.php/b" : Text), .error .fileAccess)] := by
    with_unfolding_all rfl
  have hsecond : (Engine.mk .standard).verdicts .nested ["a.php/b", "a"] =
      [(("a.php/b" : Text), .ok .compiled), (("a" : Text), .error .fileAccess)] := by
    with_unfolding_all rfl
  refine ⟨by decide +kernel, by decide +kernel, ?_, ?_, ?_, by decide +kernel⟩
  · rw [templates_nested]
  · rw [templates_nested]
    exact .swap _ _ _
  · rw [hfirst, hsecond]
    intro hperm
    have hmem := hperm.mem_iff.1 List.mem_cons_self
    simp at hmem

-- A directory that is made first shows that a name in it is too long, before the compiler is asked.
example : (Engine.mk .standard).verdicts .crowded ["u/" ++ List.replicate 255 'b', "u/a"] =
      [("u/" ++ List.replicate 255 'b', .error .missingExpression),
        (("u/a" : Text), .ok .compiled)] ∧
    (Engine.mk .standard).verdicts .crowded ["u/a", "u/" ++ List.replicate 255 'b'] =
      [(("u/a" : Text), .ok .compiled), ("u/" ++ List.replicate 255 'b', .error .fileAccess)] := by
  decide +kernel

end Engine

end Stencil
