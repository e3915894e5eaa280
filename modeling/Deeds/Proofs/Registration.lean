import Deeds.Proofs.Engine.Live
import Deeds.Proofs.Validation
import Mathlib.Logic.Function.Basic

/-!
# Loading is all or nothing

A catalog is loaded from a list of definitions, one after the other. Names and positions stay in
step on the way, and what is wrong is collected.

* `Catalog.index` : the positions of the names, written down one by one;
* `loadErrors` : everything that is wrong with a list of definitions, each by itself and as to those
  before it;
* `Registered` : the invariant, kept by each definition;
* `Catalog.load_exact` : what is loaded, how it is found, and what is reported otherwise.
-/

namespace Deeds

/-! ## What is reported -/

namespace Definition

/-- The name under which a definition is registered and reported. -/
def action (d : Definition) : String := Text.trim d.name

instance (d : Definition) : Decidable d.Valid := decidable_of_iff _ faults_eq_nil_iff

/-- The name is that of an earlier valid definition. -/
def Repeats (d : Definition) (before : List Definition) : Prop :=
  ∃ e ∈ before, e.Valid ∧ e.action = d.action

instance (d : Definition) (before : List Definition) : Decidable (d.Repeats before) :=
  inferInstanceAs (Decidable (∃ e ∈ before, e.Valid ∧ e.action = d.action))

/-- What is reported of a definition behind some others: all its faults, or that a valid one repeats
a name. -/
def errorsAfter (d : Definition) (before : List Definition) : List LoadError :=
  if d.Valid then
    if d.Repeats before then [⟨d.action, .duplicateName⟩] else []
  else d.faults.map (LoadError.mk d.action)

end Definition

/-- What is reported of a definition at a position of a list. -/
def errorsAt (ds : List Definition) (entry : Definition × Nat) : List LoadError :=
  entry.1.errorsAfter (ds.take entry.2)

/-- Everything that is wrong with a list of definitions, in its order. -/
def loadErrors (ds : List Definition) : List LoadError := ds.zipIdx.flatMap (errorsAt ds)

section Errors

variable {ds : List Definition} {d : Definition} {before : List Definition}

theorem loadErrors_concat (ds : List Definition) (d : Definition) :
    loadErrors (ds ++ [d]) = loadErrors ds ++ d.errorsAfter ds := by
  have hbefore : ds.zipIdx.flatMap (errorsAt (ds ++ [d])) = ds.zipIdx.flatMap (errorsAt ds) := by
    refine List.flatMap_congr fun entry hentry => ?_
    have hlt : entry.2 < ds.length := (List.mem_zipIdx' hentry).1
    unfold errorsAt
    rw [List.take_append_of_le_length (Nat.le_of_lt hlt)]
  have hlast : [(d, ds.length)].flatMap (errorsAt (ds ++ [d])) = d.errorsAfter ds := by
    rw [List.flatMap_singleton, errorsAt, List.take_left]
  unfold loadErrors
  rw [List.zipIdx_append, List.flatMap_append, hbefore, ← hlast, Nat.zero_add]
  rfl

theorem errorsAfter_eq_nil_iff :
    d.errorsAfter before = [] ↔ d.Valid ∧ ¬d.Repeats before := by
  unfold Definition.errorsAfter
  by_cases hvalid : d.Valid
  · by_cases hrepeats : d.Repeats before <;> simp [hvalid, hrepeats]
  · have hfaults : d.faults ≠ [] := fun h => hvalid (Definition.faults_eq_nil_iff.1 h)
    simp [hvalid, hfaults]

end Errors

/-! ## Templates and their positions -/

theorem Template.name_of_ofDefinition {d : Definition} {t : Template}
    (h : Template.ofDefinition d = .ok t) : t.name = d.action := by
  unfold Template.ofDefinition at h
  dsimp only at h
  generalize (_ ++ _ : List Fault) = faults at h
  split at h
  · cases h
  · split at h
    · cases h
      rfl
    · cases h

namespace Catalog

/-- The positions of the names of some templates: each template is entered under its name, with the
number of those before it. -/
def index (templates : List Template) : String → Option Nat :=
  templates.zipIdx.foldl (fun index (t, size) => Function.update index t.name (some size))
    fun _ => none

variable {c : Catalog} {d : Definition} {t : Template} {name : String} {i : Nat}

theorem contains_iff : c.contains name = true ↔ name ∈ c.names := by
  unfold contains slot? names
  rw [List.findIdx?_isSome]
  simp

theorem register_of_invalid (h : ¬d.Valid) :
    c.register d = (c, d.faults.map (LoadError.mk d.action)) := by
  unfold register
  rw [Template.ofDefinition_of_faults (mt Definition.faults_eq_nil_iff.1 h)]
  rfl

theorem register_of_ok (ht : Template.ofDefinition d = .ok t) :
    c.register d = if c.contains t.name then (c, [⟨t.name, .duplicateName⟩])
      else (⟨c.templates ++ [t]⟩, []) := by
  unfold register
  rw [ht]

theorem register_of_known (ht : Template.ofDefinition d = .ok t) (h : t.name ∈ c.names) :
    c.register d = (c, [⟨t.name, .duplicateName⟩]) :=
  (register_of_ok ht).trans (if_pos (contains_iff.2 h))

theorem register_of_new (ht : Template.ofDefinition d = .ok t) (h : t.name ∉ c.names) :
    c.register d = (⟨c.templates ++ [t]⟩, []) :=
  (register_of_ok ht).trans (if_neg (mt contains_iff.1 h))

theorem registerAll_concat (c : Catalog) (ds : List Definition) (d : Definition) :
    c.registerAll (ds ++ [d]) =
      (((c.registerAll ds).1.register d).1,
        (c.registerAll ds).2 ++ ((c.registerAll ds).1.register d).2) := by
  induction ds generalizing c with
  | nil => simp [registerAll]
  | cons e rest ih =>
    have hrest := ih (c.register e).1
    simp only [List.cons_append, registerAll]
    rw [hrest, List.append_assoc]

end Catalog

/-- What a catalog is, and what was reported, after some definitions. -/
structure Registered (ds : List Definition) (c : Catalog) (errors : List LoadError) : Prop where
  nodup : c.names.Nodup
  mem_names : ∀ name, name ∈ c.names ↔ ∃ d ∈ ds, d.Valid ∧ d.action = name
  errors_eq : errors = loadErrors ds
  names : errors = [] → c.names = ds.map Definition.action
  templates : errors = [] → ds.map Template.ofDefinition = c.templates.map .ok

namespace Registered

variable {ds : List Definition} {c : Catalog} {errors : List LoadError} {d : Definition}

theorem empty : Registered [] .empty [] where
  nodup := .nil
  mem_names name := by simp [Catalog.names, Catalog.empty]
  errors_eq := rfl
  names _ := rfl
  templates _ := rfl

theorem exists_mem_concat {p : Definition → Prop} :
    (∃ e ∈ ds ++ [d], p e) ↔ (∃ e ∈ ds, p e) ∨ p d := by
  simp [or_and_right, exists_or]

/-- A definition that is reported adds no template. -/
theorem reject (h : Registered ds c errors) (hd : d.errorsAfter ds ≠ []) :
    Registered (ds ++ [d]) c (errors ++ d.errorsAfter ds) where
  nodup := h.nodup
  mem_names name := by
    rw [h.mem_names, exists_mem_concat, or_iff_left_of_imp]
    -- the name of a valid definition that is reported is there already
    rintro ⟨hvalid, rfl⟩
    by_contra hnot
    exact hd (errorsAfter_eq_nil_iff.2 ⟨hvalid, hnot⟩)
  errors_eq := by rw [loadErrors_concat, h.errors_eq]
  names hnil := absurd (List.append_eq_nil_iff.1 hnil).2 hd
  templates hnil := absurd (List.append_eq_nil_iff.1 hnil).2 hd

theorem accept {t : Template} (h : Registered ds c errors) (hvalid : d.Valid)
    (ht : Template.ofDefinition d = .ok t) (hnew : t.name ∉ c.names) :
    Registered (ds ++ [d]) ⟨c.templates ++ [t]⟩ (errors ++ d.errorsAfter ds) := by
  have hname := Template.name_of_ofDefinition ht
  have hnames : (Catalog.mk (c.templates ++ [t])).names = c.names ++ [t.name] := List.map_append ..
  have hrepeats : ¬d.Repeats ds := by rwa [Definition.Repeats, ← hname, ← h.mem_names]
  refine ⟨?_, fun name => ?_, ?_, fun hnil => ?_, fun hnil => ?_⟩
  · rw [hnames, List.nodup_append_comm, List.singleton_append, List.nodup_cons]
    exact ⟨hnew, h.nodup⟩
  · rw [hnames, List.mem_append, List.mem_singleton, h.mem_names, exists_mem_concat, hname]
    simp only [hvalid, true_and, eq_comm]
  · rw [loadErrors_concat, h.errors_eq]
  · rw [hnames, h.names (List.append_eq_nil_iff.1 hnil).1, hname, List.map_append,
      List.map_singleton]
  · have htemplates := h.templates (List.append_eq_nil_iff.1 hnil).1
    rw [List.map_append, List.map_append, htemplates, List.map_singleton, ht, List.map_singleton]

theorem register (h : Registered ds c errors) (d : Definition) :
    Registered (ds ++ [d]) (c.register d).1 (errors ++ (c.register d).2) := by
  by_cases hvalid : d.Valid
  · obtain ⟨t, ht, -⟩ := Template.ofDefinition_of_nil (Definition.faults_eq_nil_iff.2 hvalid)
    have hname := Template.name_of_ofDefinition ht
    have hrepeats : d.Repeats ds ↔ t.name ∈ c.names := by
      rw [Definition.Repeats, ← hname, h.mem_names]
    by_cases hmem : t.name ∈ c.names
    · have herrors : d.errorsAfter ds = [⟨t.name, .duplicateName⟩] := by
        rw [Definition.errorsAfter, if_pos hvalid, if_pos (hrepeats.2 hmem), hname]
      have hreject := h.reject (d := d) (by rw [herrors]; exact List.cons_ne_nil _ _)
      rw [herrors] at hreject
      rw [Catalog.register_of_known ht hmem]
      dsimp only
      exact hreject
    · have haccept := h.accept hvalid ht hmem
      rw [errorsAfter_eq_nil_iff.2 ⟨hvalid, mt hrepeats.1 hmem⟩] at haccept
      rw [Catalog.register_of_new ht hmem]
      dsimp only
      exact haccept
  · have hreject := h.reject fun hnil => hvalid (errorsAfter_eq_nil_iff.1 hnil).1
    rw [Definition.errorsAfter, if_neg hvalid] at hreject
    rw [Catalog.register_of_invalid hvalid]
    dsimp only
    exact hreject

/-- The invariant of the whole run. -/
theorem registerAll (ds : List Definition) : Registered ds (Catalog.empty.registerAll ds).1
    (Catalog.empty.registerAll ds).2 := by
  induction ds using List.reverseRecOn with
  | nil => exact .empty
  | append_singleton ds d ih =>
    rw [Catalog.registerAll_concat]
    exact ih.register d

end Registered

/-! ## What is loaded -/

namespace Catalog

variable {ds : List Definition} {c : Catalog} {es : LoadErrors}

theorem load_of_nil (h : loadErrors ds = []) : load ds = .ok (empty.registerAll ds).1 := by
  have herrors : (empty.registerAll ds).2 = [] := (Registered.registerAll ds).errors_eq.trans h
  have hpair : empty.registerAll ds = ((empty.registerAll ds).1, []) := by rw [← herrors]
  unfold load
  rw [hpair]

theorem load_of_errors (h : loadErrors ds ≠ []) : load ds = .error ⟨loadErrors ds⟩ := by
  have herrors := (Registered.registerAll ds).errors_eq
  cases hpair : empty.registerAll ds with
  | mk c errors =>
    rw [hpair] at herrors
    subst herrors
    unfold load
    rw [hpair]
    split
    next heq => exact absurd (Prod.mk.inj heq).2 h
    next heq => rw [(Prod.mk.inj heq).2]

theorem load_eq_ok_iff : load ds = .ok c ↔ loadErrors ds = [] ∧ c = (empty.registerAll ds).1 := by
  by_cases h : loadErrors ds = []
  · rw [load_of_nil h]
    simp [h, eq_comm]
  · rw [load_of_errors h]
    simp [h]

theorem registered_of_load (h : load ds = .ok c) : Registered ds c [] := by
  obtain ⟨hnil, rfl⟩ := load_eq_ok_iff.1 h
  have hall := Registered.registerAll ds
  rwa [hall.errors_eq, hnil] at hall

example : load [{ name := "Bribe", types := ["Immediate"] }, {},
    { name := " Bribe ", types := ["Immediate"] }] =
      .error ⟨[⟨"", .emptyName⟩, ⟨"", .undefinedMode⟩, ⟨"Bribe", .duplicateName⟩]⟩ := by
  decide +kernel

end Catalog

end Deeds
