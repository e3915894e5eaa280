import Deeds.Content.Load
import Mathlib.Data.List.Basic
import Mathlib.Data.List.Forall2

/-!
# Folders load in the order of their names

A folder is listed in any order. What is loaded from it depends on the names and contents of its
action files alone: all their definitions, in the order of the bytes of the names, or the error of
the first file in that order that cannot be loaded.

* `FileName.IsAction`, `FileName.extension?_eq_some_iff` : the names of action files;
* `Content.actionFiles_perm` : a listing in another order has the same action files, in the same order;
* `Content.loadAll_eq_ok_iff`, `Content.loadAll_eq_error_iff` : all files, or the first that fails;
* `Content.LoadsInOrder` : what loading a folder means; `Content.loadFolder_exact` : so it is loaded.
-/

namespace Deeds

namespace FileName

variable {n : FileName} {ext : List UInt8}

/-- A name with a stem before its last point, and these bytes behind the point. -/
theorem extension?_eq_some_iff (hext : point ∉ ext) :
    n.extension? = some ext ↔ ∃ stem, stem ≠ [] ∧ n.bytes = stem ++ point :: ext := by
  constructor
  · intro h
    unfold extension? at h
    dsimp only at h
    split at h
    next p q rest hdrop =>
      have hp : p = point := by
        have hhead := List.head?_dropWhile_not (· != point) n.bytes.reverse
        rw [hdrop] at hhead
        simpa using hhead
      have hsplit : n.bytes.reverse = ext.reverse ++ p :: q :: rest := by
        rw [← hdrop, ← Option.some.inj h, List.reverse_reverse]
        exact (List.takeWhile_append_dropWhile ..).symm
      refine ⟨rest.reverse ++ [q], by simp, ?_⟩
      rw [← List.reverse_reverse n.bytes, hsplit, hp]
      simp
    · cases h
  · rintro ⟨stem, hstem, hbytes⟩
    have hreversed : n.bytes.reverse = ext.reverse ++ point :: stem.reverse := by simp [hbytes]
    have hext' : ∀ b ∈ ext.reverse, (b != point) = true := by
      intro b hb
      simp only [bne_iff_ne]
      rintro rfl
      exact hext (List.mem_reverse.1 hb)
    unfold extension?
    dsimp only
    rw [hreversed, List.dropWhile_append_of_pos hext', List.takeWhile_append_of_pos hext']
    cases hrest : stem.reverse with
    | nil => exact absurd (List.reverse_eq_nil_iff.1 hrest) hstem
    | cons q rest => simp

/-- The name of an action file: a stem, and then the extension in small letters. -/
def IsAction (n : FileName) : Prop := ∃ stem, stem ≠ [] ∧ n.bytes = stem ++ Text.bytesOf ".ron"

theorem extension?_eq_action_iff : n.extension? = some Content.actionExtension ↔ n.IsAction :=
  extension?_eq_some_iff (by decide)

example : (ofText "a.ron").extension? = some Content.actionExtension ∧
    (ofText ".ron").extension? = none ∧
    (ofText "a.RON").extension? ≠ some Content.actionExtension := by decide

end FileName

/-- The place that an error of loading content names. -/
def ContentError.place? : ContentError → Option String
  | .unreadableFile place _ => some place
  | .unreadableFolder place _ => some place
  | .malformedActions place => some place
  | .malformedConfig => none
  | .invalid _ => none

/-- A named item of the folder that is called by a place. -/
def Place.entry (place : String) (f : FileName × Item) : Place :=
  Place.child ⟨.ok .empty, place⟩ f.1 f.2

namespace Content

variable {place : String} {listing listed : List (FileName × Item)} {p : Place} {ps : List Place}
  {error : ContentError} {definitions : List Definition}

/-! ## The files of a listing -/

theorem mem_actionFiles {f : FileName × Item} :
    f ∈ actionFiles listing ↔ f ∈ listing ∧ f.1.IsAction := by
  unfold actionFiles
  rw [(List.mergeSort_perm _ _).mem_iff, List.mem_filter, decide_eq_true_iff,
    FileName.extension?_eq_action_iff]

theorem nodup_actionFiles (h : (listing.map Prod.fst).Nodup) :
    ((actionFiles listing).map Prod.fst).Nodup := by
  unfold actionFiles
  rw [((List.mergeSort_perm _ _).map Prod.fst).nodup_iff]
  exact (List.filter_sublist.map Prod.fst).nodup h

theorem actionFiles_pairwise_le (listing : List (FileName × Item)) :
    (actionFiles listing).Pairwise fun f g => f.1.bytes ≤ g.1.bytes := by
  have hsorted (files : List (FileName × Item)) :
      (files.mergeSort fun a b => decide (a.1.bytes ≤ b.1.bytes)).Pairwise
        fun a b => decide (a.1.bytes ≤ b.1.bytes) = true := by
    apply List.pairwise_mergeSort
    · intro a b c hab hbc
      simp only [decide_eq_true_eq] at *
      exact List.le_trans hab hbc
    · intro a b
      simp only [Bool.or_eq_true, decide_eq_true_eq]
      exact List.le_total ..
  exact (hsorted _).imp of_decide_eq_true

/-- Names differ, so the files stand in strict order. -/
theorem actionFiles_pairwise (h : (listing.map Prod.fst).Nodup) :
    (actionFiles listing).Pairwise fun f g => f.1.bytes < g.1.bytes := by
  have hne := List.pairwise_map.1 (nodup_actionFiles h)
  refine (actionFiles_pairwise_le listing).imp₂ (fun f g hle hne => ?_) hne
  refine List.not_le.1 fun hge => hne ?_
  have hbytes := List.le_antisymm hle hge
  cases hf : f.1
  cases hg : g.1
  simp_all

/-- The order of a listing does not matter. -/
theorem actionFiles_perm (h : (listing.map Prod.fst).Nodup) (hperm : listed.Perm listing) :
    actionFiles listed = actionFiles listing := by
  have hlisted : (listed.map Prod.fst).Nodup := (hperm.map Prod.fst).nodup_iff.2 h
  have hfiles : (actionFiles listed).Perm (actionFiles listing) :=
    (List.mergeSort_perm ..).trans ((hperm.filter _).trans (List.mergeSort_perm ..).symm)
  refine hfiles.eq_of_pairwise (fun f g _ _ hfg hgf => ?_) (actionFiles_pairwise hlisted)
    (actionFiles_pairwise h)
  exact absurd hfg (List.lt_asymm hgf)

/-! ## Files one after the other -/

/-- All files are loaded, and nothing is left out of any of them. -/
theorem loadAll_eq_ok_iff : loadAll ps = .ok definitions ↔
    ∃ parts, List.Forall₂ (fun p part => loadFile p = .ok part) ps parts ∧
      definitions = parts.flatten := by
  induction ps generalizing definitions with
  | nil => simp [loadAll, eq_comm]
  | cons p rest ih =>
    unfold loadAll
    cases hfile : loadFile p with
    | error error =>
      refine ⟨fun h => (nomatch h), ?_⟩
      rintro ⟨parts, hparts, -⟩
      cases hparts with
      | cons hp _ => rw [hfile] at hp; cases hp
    | ok part =>
      cases hrest : loadAll rest with
      | error error =>
        refine ⟨fun h => (nomatch h), ?_⟩
        rintro ⟨parts, hparts, -⟩
        cases hparts with
        | cons _ htail => rw [ih.2 ⟨_, htail, rfl⟩] at hrest; cases hrest
      | ok more =>
        obtain ⟨parts, hparts, hmore⟩ := ih.1 hrest
        constructor
        · rintro ⟨⟩
          exact ⟨part :: parts, .cons hfile hparts, by rw [hmore, List.flatten_cons]⟩
        · rintro ⟨parts', hparts', rfl⟩
          cases hparts' with
          | cons hp htail =>
            rw [hfile] at hp
            cases hp
            rw [ih.2 ⟨_, htail, rfl⟩] at hrest
            cases hrest
            rfl

/-- The first file that cannot be loaded decides. -/
theorem loadAll_eq_error_iff : loadAll ps = .error error ↔
    ∃ before p after, ps = before ++ p :: after ∧ (∀ q ∈ before, ∃ part, loadFile q = .ok part) ∧
      loadFile p = .error error := by
  induction ps with
  | nil => simp [loadAll]
  | cons p rest ih =>
    unfold loadAll
    cases hfile : loadFile p with
    | error first =>
      constructor
      · rintro ⟨⟩
        exact ⟨[], p, rest, rfl, fun _ h => (nomatch h), hfile⟩
      · rintro ⟨before, q, after, hps, hbefore, hq⟩
        cases before with
        | nil =>
          cases hps
          rw [hfile] at hq
          exact hq
        | cons b before =>
          cases hps
          obtain ⟨part, hpart⟩ := hbefore p List.mem_cons_self
          rw [hfile] at hpart
          cases hpart
    | ok part =>
      have hcons : (Except.ok part >>= fun definitions => loadAll rest >>= fun more =>
          Except.ok (definitions ++ more)) = .error error ↔ loadAll rest = .error error := by
        cases loadAll rest with
        | ok more => exact ⟨fun h => (nomatch h), fun h => (nomatch h)⟩
        | error e => exact Iff.rfl
      refine hcons.trans (ih.trans ⟨?_, ?_⟩)
      · rintro ⟨before, q, after, rfl, hbefore, hq⟩
        exact ⟨p :: before, q, after, rfl, List.forall_mem_cons.2 ⟨⟨part, hfile⟩, hbefore⟩, hq⟩
      · rintro ⟨before, q, after, hps, hbefore, hq⟩
        cases before with
        | nil =>
          cases hps
          rw [hfile] at hq
          cases hq
        | cons b before =>
          cases hps
          exact ⟨before, q, after, rfl, (List.forall_mem_cons.1 hbefore).2, hq⟩

/-- The error of a file names the file. -/
theorem place?_of_loadFile (h : loadFile p = .error error) : error.place? = some p.name := by
  unfold loadFile Place.readText at h
  cases htext : p.item.bind Item.readText with
  | error fault =>
    rw [htext] at h
    cases h
    rfl
  | ok text =>
    rw [htext] at h
    dsimp only [Bind.bind, Except.bind] at h
    cases hread : ActionFile.read text with
    | some definitions =>
      rw [hread] at h
      cases h
    | none =>
      rw [hread] at h
      cases h
      rfl

/-! ## Folders -/

theorem loadFolder_eq (place : String) (listing : List (FileName × Item)) :
    loadFolder ⟨.ok (.folder listing), place⟩
      = loadAll ((actionFiles listing).map (Place.entry place)) := rfl

theorem catalogOf_eq_ok_iff {catalog : Catalog} :
    catalogOf definitions = .ok catalog ↔ Catalog.load definitions = .ok catalog := by
  unfold catalogOf
  cases Catalog.load definitions with
  | ok catalog => simp
  | error errors => simp

theorem catalogOf_eq_error_iff : catalogOf definitions = .error error ↔
    ∃ errors, Catalog.load definitions = .error errors ∧ error = .invalid errors := by
  unfold catalogOf
  cases Catalog.load definitions with
  | ok catalog => simp
  | error errors => simp [eq_comm]

/-- How the folder that is called by a place loads from its action files, however it is listed. -/
structure LoadsInOrder (place : String) (listing files : List (FileName × Item)) : Prop where
  /-- The files are the entries whose extension is that of action files. -/
  mem_iff : ∀ f, f ∈ files ↔ f ∈ listing ∧ f.1.IsAction
  /-- They stand in the order of the bytes of their names. -/
  ordered : files.Pairwise fun f g => f.1.bytes < g.1.bytes
  /-- All files are loaded, one after the other; -/
  loads : ∀ listed, listed.Perm listing → ∀ definitions,
    loadFolder ⟨.ok (.folder listed), place⟩ = .ok definitions ↔
      ∃ parts, List.Forall₂ (fun f part => loadFile (.entry place f) = .ok part) files parts ∧
        definitions = parts.flatten
  /-- or nothing is loaded, because of the first file that fails. -/
  fails : ∀ listed, listed.Perm listing → ∀ error,
    loadFolder ⟨.ok (.folder listed), place⟩ = .error error ↔
      ∃ before f after, files = before ++ f :: after ∧
        (∀ g ∈ before, ∃ part, loadFile (.entry place g) = .ok part) ∧
        loadFile (.entry place f) = .error error
  /-- The error of a file names it. -/
  names : ∀ f error, loadFile (.entry place f) = .error error →
    error.place? = some (Place.entry place f).name
  /-- The catalog is that of the definitions, in their order; -/
  catalogs : ∀ listed, listed.Perm listing → ∀ catalog,
    loadCatalog ⟨.ok (.folder listed), place⟩ = .ok catalog ↔
      ∃ definitions, loadFolder ⟨.ok (.folder listing), place⟩ = .ok definitions ∧
        Catalog.load definitions = .ok catalog
  /-- or there is none, and the error is that of the folder, or all the errors of the definitions. -/
  rejects : ∀ listed, listed.Perm listing → ∀ error,
    loadCatalog ⟨.ok (.folder listed), place⟩ = .error error ↔
      loadFolder ⟨.ok (.folder listing), place⟩ = .error error ∨
      ∃ definitions errors, loadFolder ⟨.ok (.folder listing), place⟩ = .ok definitions ∧
        Catalog.load definitions = .error errors ∧ error = .invalid errors

/-- A folder loads from its action files in the order of the bytes of their names, completely or not
at all, and in whatever order it is listed: no two entries of a folder have the same name. -/
theorem loadFolder_exact (place : String) (listing : List (FileName × Item))
    (hnames : (listing.map Prod.fst).Nodup) :
    LoadsInOrder place listing (actionFiles listing) := by
  have hfolder {listed : List (FileName × Item)} (hperm : listed.Perm listing) :
      loadFolder ⟨.ok (.folder listed), place⟩
        = loadAll ((actionFiles listing).map (Place.entry place)) := by
    rw [loadFolder_eq, actionFiles_perm hnames hperm]
  have hcatalog {listed : List (FileName × Item)} (hperm : listed.Perm listing) :
      loadCatalog ⟨.ok (.folder listed), place⟩
        = loadFolder ⟨.ok (.folder listing), place⟩ >>= catalogOf := by
    rw [hfolder (.refl listing), ← hfolder hperm]
    rfl
  refine ⟨fun f => mem_actionFiles, actionFiles_pairwise hnames, fun listed hperm ds => ?_,
    fun listed hperm e => ?_, fun f e => place?_of_loadFile, fun listed hperm c => ?_,
    fun listed hperm e => ?_⟩
  · rw [hfolder hperm, loadAll_eq_ok_iff]
    simp only [List.forall₂_map_left_iff]
  · rw [hfolder hperm, loadAll_eq_error_iff]
    constructor
    · rintro ⟨before, p, after, hfiles, hbefore, hp⟩
      obtain ⟨fs, gs, hsplit, rfl, hgs⟩ := List.map_eq_append_iff.1 hfiles
      obtain ⟨f, after', rfl, rfl, rfl⟩ := List.map_eq_cons_iff.1 hgs
      exact ⟨fs, f, after', hsplit, fun g hg => hbefore _ (List.mem_map_of_mem hg), hp⟩
    · rintro ⟨before, f, after, hfiles, hbefore, hf⟩
      refine ⟨before.map (Place.entry place), Place.entry place f, after.map (Place.entry place),
        by rw [hfiles, List.map_append, List.map_cons], fun q hq => ?_, hf⟩
      obtain ⟨g, hg, rfl⟩ := List.mem_map.1 hq
      exact hbefore g hg
  · rw [hcatalog hperm]
    cases loadFolder ⟨.ok (.folder listing), place⟩ with
    | error e => exact ⟨fun h => (nomatch h), fun ⟨_, h, _⟩ => (nomatch h)⟩
    | ok ds =>
      refine catalogOf_eq_ok_iff.trans ⟨fun h => ⟨ds, rfl, h⟩, ?_⟩
      rintro ⟨_, ⟨⟩, h⟩
      exact h
  · rw [hcatalog hperm]
    cases loadFolder ⟨.ok (.folder listing), place⟩ with
    | error first =>
      constructor
      · rintro ⟨⟩
        exact .inl rfl
      · rintro (⟨⟨⟩⟩ | ⟨_, _, h, _⟩)
        · rfl
        · cases h
    | ok ds =>
      refine catalogOf_eq_error_iff.trans ⟨fun ⟨errors, h⟩ => .inr ⟨ds, errors, rfl, h⟩, ?_⟩
      rintro (h | ⟨_, errors, ⟨⟩, h⟩)
      · cases h
      · exact ⟨errors, h⟩

/-- A folder with two action files, and three entries that are none. -/
def shelf : List (FileName × Item) :=
  [(.ofText "b.ron", .file "(actions: [])".toUTF8), (.ofText ".ron", .file "half".toUTF8),
    (.ofText "a.ron", .folder []), (.ofText "c.RON", .file "half".toUTF8),
    (.ofText "notes.txt", .file "ignored".toUTF8)]

theorem mergeSort_pair {α : Type} (le : α → α → Bool) (x y : α) :
    [x, y].mergeSort le = if le x y then [x, y] else [y, x] := by
  rw [List.mergeSort]
  simp [List.MergeSort.Internal.splitInTwo, List.merge]

/-- Only two of the entries are read, in the order of their names. -/
theorem actionFiles_shelf :
    (actionFiles shelf).map Prod.fst = [.ofText "a.ron", .ofText "b.ron"] := by
  have hfiles : shelf.filter (fun f => f.1.extension? = some actionExtension)
      = [(.ofText "b.ron", .file "(actions: [])".toUTF8), (.ofText "a.ron", .folder [])] := rfl
  unfold actionFiles
  rw [hfiles, mergeSort_pair, if_neg (by decide)]
  rfl

theorem loadFolder_shelf : (shelf.map Prod.fst).Nodup ∧
    (actionFiles shelf).map Prod.fst = [.ofText "a.ron", .ofText "b.ron"] ∧
    LoadsInOrder "data" shelf (actionFiles shelf) :=
  ⟨by decide, actionFiles_shelf, loadFolder_exact "data" shelf (by decide)⟩

end Content

end Deeds
