import Mathlib.Data.List.Nodup
import Switchyard.Settings.Tree

/-! What a layer does to a tree. A layer is a list of writes, and each of them either takes the
place of what stands at its spot or is itself a list of writes to what stands there. Writes to
fields make a table and writes to items make a list. So writes of both kinds, or of one kind to
what has the other shape, leave nothing of what stood there; writes of one kind to what has their
shape leave to each field or item what the writes to that one make of it. -/
namespace Switchyard.Tree

def isTable : Tree → Bool
  | table _ => true
  | _ => false

def isList : Tree → Bool
  | list _ => true
  | _ => false

/-- Nothing that anything could be converted from: an empty item or an empty table. -/
def isVoid : Tree → Bool
  | nil | table [] => true
  | _ => false

/-- The tree that a layer is by itself. -/
def own (layer : List (String × Tree)) : Tree := overlay layer (table [])

/-! ### Look-ups -/

theorem find?_setField (key : String) (value : Tree) (fields : List (String × Tree)) (k : String) :
    (setField key value fields).find? (·.1 = k) =
      if key = k then some (key, value) else fields.find? (·.1 = k) := by
  induction fields with
  | nil => by_cases hk : key = k <;> simp [setField, hk]
  | cons field rest ih =>
    obtain ⟨name, t⟩ := field
    by_cases hname : name = key
    · by_cases hk : key = k <;> simp [setField, hname, hk]
    · rw [setField, if_neg hname, List.find?_cons, List.find?_cons, ih]
      by_cases hk : name = k
      · simp [hk, show key ≠ k from fun h => hname (hk.trans h.symm)]
      · simp [hk]

theorem get?_of_not_table {t : Tree} (h : t.isTable = false) (k : String) : t.get? k = none := by
  cases t <;> first | rfl | cases h

theorem eq_table {t : Tree} (h : t.isTable = true) : ∃ fields, t = table fields := by
  cases t <;> first | exact ⟨_, rfl⟩ | cases h

theorem fields_of_not_table {t : Tree} (h : t.isTable = false) : t.fields = [] := by
  cases t <;> first | rfl | cases h

theorem items_of_not_list {t : Tree} (h : t.isList = false) : t.items = [] := by
  cases t <;> first | rfl | cases h

theorem not_isList_of_isTable {t : Tree} (h : t.isTable = true) : t.isList = false := by
  cases t <;> first | rfl | cases h

theorem nothing_of_isVoid {t : Tree} (h : t.isVoid = true) : t.fields = [] ∧ t.items = [] := by
  match t, h with
  | nil, _ => exact ⟨rfl, rfl⟩
  | table [], _ => exact ⟨rfl, rfl⟩

theorem get?_isSome_iff {t : Tree} {k : String} :
    (t.get? k).isSome ↔ k ∈ t.fields.map Prod.fst := by
  simp [get?, List.find?_isSome]

/-! ### Writes -/

namespace Step

def isField : Step → Bool
  | field _ => true
  | item _ => false

/-- The step with its key in lower case. -/
def lowered : Step → Step
  | field key => field (lower key)
  | item place => item place

end Step

/-- A value that is to be put at the end of a path behind a step, whose key is in lower case. -/
structure Write where
  step : Step
  path : List Step
  value : Tree

namespace Write

/-- The value takes the place of all that stands at the step. -/
def replaces (w : Write) : Bool := w.path.isEmpty && !(w.step.isField && w.value.isTable)

/-- What stands at the step after the write. -/
def after (w : Write) (old : Option Tree) : Tree :=
  match w.step, w.path, w.value with
  | .field _, [], table fields => putAll fields (old.getD (table []))
  | _, path, value => putAt value path (old.getD (table []))

def run (root : Tree) (w : Write) : Tree :=
  match w.step with
  | .field key => table (setField key (w.after (root.get? key)) root.fields)
  | .item place =>
    match position? place root.items.length with
    | some k => list (setItem k (w.after root.items[k]?) root.items)
    | none => list root.items

/-- The writes to what stands at the step. -/
def inner (w : Write) : List Write :=
  match w.path with
  | step :: path => [⟨step.lowered, path, w.value⟩]
  | [] => w.value.fields.map fun field => ⟨.field (lower field.1), [], field.2⟩

end Write

def runAll (ws : List Write) (root : Tree) : Tree := ws.foldl Write.run root

@[simp] theorem runAll_nil (root : Tree) : runAll [] root = root := rfl

@[simp] theorem runAll_cons (w : Write) (ws : List Write) (root : Tree) :
    runAll (w :: ws) root = runAll ws (w.run root) := rfl

theorem runAll_append (ws ws' : List Write) (root : Tree) :
    runAll (ws ++ ws') root = runAll ws' (runAll ws root) := List.foldl_append

theorem put_eq (key : String) (value root : Tree) :
    put key value root = Write.run root ⟨.field (lower key), [], value⟩ := by
  cases value <;> simp [put, putAt, Write.run, Write.after]

theorem putAt_cons (value : Tree) (step : Step) (path : List Step) (root : Tree) :
    putAt value (step :: path) root = Write.run root ⟨step.lowered, path, value⟩ := by
  cases step with
  | field key =>
    cases path with
    | nil => exact put_eq key value root
    | cons => rfl
  | item place => rfl

theorem putAll_eq (fields : List (String × Tree)) (root : Tree) :
    putAll fields root =
      runAll (fields.map fun field => ⟨.field (lower field.1), [], field.2⟩) root := by
  induction fields generalizing root with
  | nil => simp [putAll]
  | cons field rest ih => simp [putAll, ih, put_eq]

/-- A write replaces, or it is a list of writes to what stands there. -/
theorem Write.after_eq (w : Write) (old : Option Tree) :
    w.after old = if w.replaces then w.value else runAll w.inner (old.getD (table [])) := by
  obtain ⟨step, path, value⟩ := w
  cases path with
  | nil =>
    cases step <;> cases value <;>
      simp [after, replaces, inner, Step.isField, isTable, putAt, putAll_eq, fields]
  | cons next path => simp [after, replaces, inner, putAt_cons]

/-! ### Layers -/

theorem exists_field_of_steps? {cs : List Char} {steps : List Step} (h : steps? cs = some steps) :
    ∃ name rest, steps = .field name :: rest := by
  unfold steps? at h
  split at h
  · cases h
  · dsimp only at h
    split at h
    · obtain ⟨places, -, rfl⟩ := Option.map_eq_some_iff.1 h
      exact ⟨_, _, rfl⟩
    · cases h

/-- A path begins with a word. -/
theorem exists_path (key : String) : ∃ name rest, path key = .field name :: rest := by
  unfold path
  split
  · rename_i parts hparts
    obtain ⟨first, more, hsplit⟩ := List.exists_cons_of_ne_nil
      (List.splitOn_ne_nil '.' key.toList)
    rw [hsplit, List.mapM_cons] at hparts
    obtain ⟨steps, hsteps, hparts⟩ := Option.bind_eq_some_iff.1 hparts
    obtain ⟨later, -, hparts⟩ := Option.bind_eq_some_iff.1 hparts
    cases hparts
    obtain ⟨name, rest, rfl⟩ := exists_field_of_steps? hsteps
    exact ⟨name, rest ++ later.flatten, rfl⟩
  · exact ⟨key, [], rfl⟩

/-- The write of a field of a layer. -/
def write (field : String × Tree) : Write :=
  ⟨((path field.1).headD (.field field.1)).lowered, (path field.1).tail, field.2⟩

/-- The writes of a layer. -/
def writes (layer : List (String × Tree)) : List Write := layer.map write

theorem putAt_path (key : String) (value root : Tree) :
    putAt value (path key) root = (write (key, value)).run root := by
  obtain ⟨name, rest, hpath⟩ := exists_path key
  rw [write, hpath, putAt_cons]
  rfl

theorem overlay_eq (layer : List (String × Tree)) (root : Tree) :
    overlay layer root = runAll (writes layer) root := by
  induction layer generalizing root with
  | nil => rfl
  | cons field rest ih =>
    rw [overlay, List.foldl_cons, putAt_path, ← overlay, ih]
    rfl

theorem isField_write (field : String × Tree) : (write field).step.isField = true := by
  obtain ⟨name, rest, hpath⟩ := exists_path field.1
  rw [write, hpath]
  rfl

theorem isField_of_mem_writes {layer : List (String × Tree)} :
    ∀ w ∈ writes layer, w.step.isField = true := by
  intro w hw
  obtain ⟨field, -, rfl⟩ := List.mem_map.1 hw
  exact isField_write field

/-! ### Fields -/

/-- What stands at a spot after writes to that spot. -/
def fold (ws : List Write) (old : Option Tree) : Option Tree :=
  ws.foldl (fun old w => some (w.after old)) old

@[simp] theorem fold_nil (old : Option Tree) : fold [] old = old := rfl

@[simp] theorem fold_cons (w : Write) (ws : List Write) (old : Option Tree) :
    fold (w :: ws) old = fold ws (some (w.after old)) := rfl

theorem isSome_fold {ws : List Write} (hne : ws ≠ []) (old : Option Tree) :
    (fold ws old).isSome := by
  induction ws generalizing old with
  | nil => contradiction
  | cons w ws ih =>
    cases ws with
    | nil => rfl
    | cons => exact ih (by simp) _

/-- The writes to a field. -/
def toKey (ws : List Write) (key : String) : List Write := ws.filter (·.step = .field key)

theorem mem_toKey {ws : List Write} {w : Write} {key : String} :
    w ∈ toKey ws key ↔ w ∈ ws ∧ w.step = .field key := by
  simp [toKey]

/-- That all writes are to fields. -/
def ToFields (ws : List Write) : Prop := ∀ w ∈ ws, w.step.isField = true

/-- That all writes are to items. -/
def ToItems (ws : List Write) : Prop := ∀ w ∈ ws, w.step.isField = false

theorem Write.run_field {w : Write} {key : String} (h : w.step = .field key) (root : Tree) :
    w.run root = table (setField key (w.after (root.get? key)) root.fields) := by
  rw [run, h]

theorem Write.run_item {w : Write} {place : Int} (h : w.step = .item place) (root : Tree) :
    w.run root = list (match position? place root.items.length with
      | some k => setItem k (w.after root.items[k]?) root.items
      | none => root.items) := by
  rw [run, h]
  dsimp only
  split <;> rfl

theorem exists_key {w : Write} (h : w.step.isField = true) : ∃ key, w.step = .field key := by
  cases hstep : w.step with
  | field key => exact ⟨key, rfl⟩
  | item => rw [hstep] at h; cases h

theorem exists_place {w : Write} (h : w.step.isField = false) : ∃ place, w.step = .item place := by
  cases hstep : w.step with
  | field => rw [hstep] at h; cases h
  | item place => exact ⟨place, rfl⟩

theorem get?_run {w : Write} (hw : w.step.isField = true) (root : Tree) (key : String) :
    (w.run root).get? key =
      if w.step = .field key then some (w.after (root.get? key)) else root.get? key := by
  obtain ⟨k, hk⟩ := exists_key hw
  rw [Write.run_field hk, get?, fields, find?_setField, hk]
  by_cases h : k = key <;> simp [h, get?]

/-- The writes to other keys change nothing under a key. -/
theorem get?_runAll {ws : List Write} (h : ToFields ws) (root : Tree) (key : String) :
    (runAll ws root).get? key = fold (toKey ws key) (root.get? key) := by
  induction ws generalizing root with
  | nil => rfl
  | cons w ws ih =>
    obtain ⟨hw, hws⟩ := List.forall_mem_cons.1 h
    rw [runAll_cons, ih hws, get?_run hw]
    by_cases hkey : w.step = .field key <;> simp [toKey, hkey]

theorem mem_keys_of_mem {ws : List Write} (h : ToFields ws) {w : Write} {key : String}
    (hw : w ∈ ws) (hkey : w.step = .field key) (root : Tree) :
    key ∈ (runAll ws root).fields.map Prod.fst := by
  rw [← get?_isSome_iff, get?_runAll h]
  exact isSome_fold (List.ne_nil_of_mem (mem_toKey.2 ⟨hw, hkey⟩)) _

/-- Every key that writes give to the empty table they give to every tree. -/
theorem keys_runAll_subset {ws : List Write} (h : ToFields ws) (root : Tree) :
    (runAll ws (table [])).fields.map Prod.fst ⊆ (runAll ws root).fields.map Prod.fst := by
  intro key hkey
  rw [← get?_isSome_iff, get?_runAll h] at hkey
  cases hws : toKey ws key with
  | nil => simp [hws, get?, fields] at hkey
  | cons w rest =>
    obtain ⟨hmem, hstep⟩ := mem_toKey.1 (hws ▸ List.mem_cons_self : w ∈ toKey ws key)
    exact mem_keys_of_mem h hmem hstep root

theorem mem_keys_setField {key k : String} {value : Tree} {fields : List (String × Tree)} :
    k ∈ (setField key value fields).map Prod.fst ↔ k = key ∨ k ∈ fields.map Prod.fst := by
  have h := find?_setField key value fields k
  have hfields : k ∈ fields.map Prod.fst ↔ (fields.find? (·.1 = k)).isSome := by
    simp [List.find?_isSome]
  have hset : k ∈ (setField key value fields).map Prod.fst ↔
      ((setField key value fields).find? (·.1 = k)).isSome := by
    simp [List.find?_isSome]
  rw [hset, hfields, h]
  by_cases hk : key = k
  · simp [hk]
  · simp [hk, Ne.symm hk]

theorem nodup_setField {key : String} {value : Tree} {fields : List (String × Tree)}
    (h : (fields.map Prod.fst).Nodup) : ((setField key value fields).map Prod.fst).Nodup := by
  induction fields with
  | nil => simp [setField]
  | cons field rest ih =>
    obtain ⟨hfresh, hrest⟩ := List.nodup_cons.1 (List.map_cons ▸ h)
    rw [setField]
    split
    · exact h
    · next hname =>
      rw [List.map_cons, List.nodup_cons, mem_keys_setField]
      exact ⟨fun hmem => hmem.elim hname hfresh, ih hrest⟩

/-- No key stands twice in a table that is made by writes. -/
theorem nodup_runAll {ws : List Write} (hws : ToFields ws) {root : Tree}
    (h : (root.fields.map Prod.fst).Nodup) : ((runAll ws root).fields.map Prod.fst).Nodup := by
  induction ws generalizing root with
  | nil => exact h
  | cons w ws ih =>
    obtain ⟨hw, hws⟩ := List.forall_mem_cons.1 hws
    obtain ⟨key, hkey⟩ := exists_key hw
    exact ih hws (by rw [w.run_field hkey]; exact nodup_setField h)

/-! ### Items -/

theorem getElem?_setItem (k : Nat) (value : Tree) (us : List Tree) (p : Nat) :
    (setItem k value us)[p]? =
      if p = k then some value else us[p]?.or (if p < k then some nil else none) := by
  rw [setItem, List.getElem?_set]
  by_cases hp : k = p
  · subst hp
    have hlength : k < (us ++ List.replicate (k + 1 - us.length) nil).length := by
      rw [List.length_append, List.length_replicate]
      omega
    rw [if_pos rfl, if_pos hlength, if_pos rfl]
  · rw [if_neg hp, if_neg (Ne.symm hp)]
    by_cases hin : p < us.length
    · rw [List.getElem?_append_left hin, List.getElem?_eq_getElem hin, Option.some_or]
    · rw [List.getElem?_append_right (Nat.not_lt.1 hin), List.getElem?_replicate,
        List.getElem?_eq_none (Nat.not_lt.1 hin), Option.none_or]
      congr 1
      exact propext (by omega)

theorem length_setItem (k : Nat) (value : Tree) (us : List Tree) :
    (setItem k value us).length = max us.length (k + 1) := by
  rw [setItem, List.length_set, List.length_append, List.length_replicate]
  omega

/-- Each item of a list is overwritten by itself, in the same way in every list of that length. -/
theorem exists_fold_item {ws : List Write} (h : ToItems ws) {n p : Nat} (hp : p < n) :
    ∃ ds, ∀ us, us.length = n → (runAll ws (list us)).items[p]? = fold ds us[p]? := by
  induction ws generalizing n with
  | nil => exact ⟨[], fun us _ => rfl⟩
  | cons w ws ih =>
    obtain ⟨hw, hws⟩ := List.forall_mem_cons.1 h
    obtain ⟨place, hplace⟩ := exists_place hw
    cases hk : position? place n with
    | none =>
      obtain ⟨ds, hds⟩ := ih hws hp
      refine ⟨ds, fun us hn => ?_⟩
      rw [runAll_cons, w.run_item hplace, items, hn, hk]
      exact hds us hn
    | some k =>
      obtain ⟨ds, hds⟩ := ih hws (Nat.lt_of_lt_of_le hp (Nat.le_max_left n (k + 1)))
      refine ⟨if p = k then w :: ds else ds, fun us hn => ?_⟩
      rw [runAll_cons, w.run_item hplace, items, hn, hk, hds _ (by rw [length_setItem, hn]),
        getElem?_setItem]
      by_cases hpk : p = k
      · rw [if_pos hpk, if_pos hpk, ← hpk, fold_cons]
      · rw [if_neg hpk, if_neg hpk, List.getElem?_eq_getElem (hn ▸ hp), Option.some_or]

/-- Beyond the end of a list the items come of the writes alone. -/
theorem items_runAll_beyond {ws : List Write} (h : ToItems ws) {us vs : List Tree} {p : Nat}
    (hlength : us.length = vs.length) (hp : us.length ≤ p) :
    (runAll ws (list us)).items[p]? = (runAll ws (list vs)).items[p]? := by
  induction ws generalizing us vs with
  | nil =>
    exact (List.getElem?_eq_none hp).trans (List.getElem?_eq_none (hlength ▸ hp)).symm
  | cons w ws ih =>
    obtain ⟨hw, hws⟩ := List.forall_mem_cons.1 h
    obtain ⟨place, hplace⟩ := exists_place hw
    rw [runAll_cons, runAll_cons, w.run_item hplace, w.run_item hplace, items, items, ← hlength]
    cases position? place us.length with
    | none => exact ih hws hlength hp
    | some k =>
      dsimp only
      have hu := length_setItem k (w.after us[k]?) us
      have hv := length_setItem k (w.after vs[k]?) vs
      rw [← hlength] at hv
      by_cases hin : p < max us.length (k + 1)
      · -- the write has made the item, out of nothing in both lists
        obtain ⟨ds, hds⟩ := exists_fold_item hws hin
        have hnone : us[p]? = none := List.getElem?_eq_none hp
        have hnone' : vs[p]? = none := List.getElem?_eq_none (hlength ▸ hp)
        rw [hds _ hu, hds _ hv, getElem?_setItem, getElem?_setItem, hnone, hnone']
        by_cases hpk : p = k
        · rw [← hpk, hnone, hnone']
        · rw [if_neg hpk, if_neg hpk]
      · exact ih hws (hu.trans hv.symm) (hu ▸ Nat.not_lt.1 hin)

/-! ### Shapes -/

theorem Write.run_congr_fields {w : Write} (hw : w.step.isField = true) {root root' : Tree}
    (h : root.fields = root'.fields) : w.run root = w.run root' := by
  obtain ⟨key, hkey⟩ := exists_key hw
  rw [run_field hkey, run_field hkey, get?, get?, h]

theorem Write.run_congr_items {w : Write} (hw : w.step.isField = false) {root root' : Tree}
    (h : root.items = root'.items) : w.run root = w.run root' := by
  obtain ⟨place, hplace⟩ := exists_place hw
  rw [run_item hplace, run_item hplace, h]

theorem Write.isTable_run {w : Write} (hw : w.step.isField = true) (root : Tree) :
    (w.run root).isTable = true := by
  obtain ⟨key, hkey⟩ := exists_key hw
  rw [run_field hkey]
  rfl

theorem Write.isList_run {w : Write} (hw : w.step.isField = false) (root : Tree) :
    (w.run root).isList = true := by
  obtain ⟨place, hplace⟩ := exists_place hw
  rw [run_item hplace]
  rfl

theorem isTable_runAll {ws : List Write} (h : ToFields ws) {root : Tree}
    (hroot : ws ≠ [] ∨ root.isTable = true) : (runAll ws root).isTable = true := by
  induction ws generalizing root with
  | nil => exact hroot.resolve_left (absurd rfl)
  | cons w ws ih =>
    obtain ⟨hw, hws⟩ := List.forall_mem_cons.1 h
    exact ih hws (.inr (w.isTable_run hw root))

theorem isList_runAll {ws : List Write} (h : ToItems ws) {root : Tree}
    (hroot : ws ≠ [] ∨ root.isList = true) : (runAll ws root).isList = true := by
  induction ws generalizing root with
  | nil => exact hroot.resolve_left (absurd rfl)
  | cons w ws ih =>
    obtain ⟨hw, hws⟩ := List.forall_mem_cons.1 h
    exact ih hws (.inr (w.isList_run hw root))

/-- With a write to a field, nothing but its fields counts of what stood there. -/
theorem runAll_congr_fields {ws : List Write} (hws : ¬ ToItems ws) {root root' : Tree}
    (h : root.fields = root'.fields) : runAll ws root = runAll ws root' := by
  induction ws generalizing root root' with
  | nil => exact absurd (List.forall_mem_nil _) hws
  | cons w ws ih =>
    rw [runAll_cons, runAll_cons]
    cases hw : w.step.isField with
    | true => rw [Write.run_congr_fields hw h]
    | false =>
      refine ih (fun hitems => hws (List.forall_mem_cons.2 ⟨hw, hitems⟩)) ?_
      have hnone (root : Tree) : (w.run root).fields = [] := by
        obtain ⟨place, hplace⟩ := exists_place hw
        rw [Write.run_item hplace]
        rfl
      rw [hnone, hnone]

/-- With a write to an item, nothing but its items does. -/
theorem runAll_congr_items {ws : List Write} (hws : ¬ ToFields ws) {root root' : Tree}
    (h : root.items = root'.items) : runAll ws root = runAll ws root' := by
  induction ws generalizing root root' with
  | nil => exact absurd (List.forall_mem_nil _) hws
  | cons w ws ih =>
    rw [runAll_cons, runAll_cons]
    cases hw : w.step.isField with
    | false => rw [Write.run_congr_items hw h]
    | true =>
      refine ih (fun hfields => hws (List.forall_mem_cons.2 ⟨hw, hfields⟩)) ?_
      have hnone (root : Tree) : (w.run root).items = [] :=
        items_of_not_list (not_isList_of_isTable (w.isTable_run hw root))
      rw [hnone, hnone]

/-- What stood there counts only for writes of one kind, if it has their shape. -/
theorem runAll_cases {ws : List Write} (hne : ws ≠ []) {root base : Tree}
    (hfields : root.isTable = false → root.fields = base.fields)
    (hitems : root.isList = false → root.items = base.items) :
    runAll ws root = runAll ws base ∨ (ToFields ws ∧ root.isTable = true) ∨
      (ToItems ws ∧ root.isList = true) := by
  obtain ⟨w, hw⟩ := List.exists_mem_of_ne_nil ws hne
  by_cases hfield : ToFields ws
  · have hmixed : ¬ ToItems ws := fun hitem => by cases (hfield w hw).symm.trans (hitem w hw)
    cases hroot : root.isTable with
    | true => exact .inr (.inl ⟨hfield, rfl⟩)
    | false => exact .inl (runAll_congr_fields hmixed (hfields hroot))
  · cases hroot : root.isList with
    | false => exact .inl (runAll_congr_items hfield (hitems hroot))
    | true =>
      by_cases hitem : ToItems ws
      · exact .inr (.inr ⟨hitem, rfl⟩)
      · have htable : root.isTable = false := by
          cases htable : root.isTable with
          | false => rfl
          | true => cases (not_isList_of_isTable htable).symm.trans hroot
        exact .inl (runAll_congr_fields hitem (hfields htable))

/-! ### Writes to one spot -/

/-- Once a write replaces what stands there, it does not matter what that is. -/
theorem fold_of_replaces {ws : List Write} (h : ws.any Write.replaces = true)
    (old old' : Option Tree) : fold ws old = fold ws old' := by
  induction ws generalizing old old' with
  | nil => cases h
  | cons w ws ih =>
    by_cases hw : w.replaces = true
    · simp [Write.after_eq, hw]
    · exact ih (by simpa [hw] using h) _ _

/-- Writes that replace nothing are one list of writes to what stands there. -/
theorem fold_of_not_replaces {ws : List Write} (h : ws.any Write.replaces = false) (hne : ws ≠ [])
    (old : Option Tree) :
    fold ws old = some (runAll (ws.flatMap Write.inner) (old.getD (table []))) := by
  induction ws generalizing old with
  | nil => contradiction
  | cons w ws ih =>
    obtain ⟨hw, hws⟩ : w.replaces = false ∧ ws.any Write.replaces = false := by simpa using h
    rw [fold_cons, Write.after_eq, if_neg (by simp [hw]), List.flatMap_cons, runAll_append]
    cases ws with
    | nil => rfl
    | cons => exact ih hws (by simp) _

/-- With writes to a spot there stands what they make of nothing, or that is nothing and what stood
there remains, or there is a list, or both are tables and the one has no key that the other
lacks. -/
theorem fold_cases {ws : List Write} (hne : ws ≠ []) (old : Option Tree) {base : Option Tree}
    (hbase : base.all isVoid = true) :
    ∃ t n, fold ws base = some t ∧ fold ws old = some n ∧
      (n = t ∨ (t.isVoid = true ∧ n = old.getD (table [])) ∨ n.isList = true ∨
        (n.isTable = true ∧ t.isTable = true ∧ t.fields ≠ [] ∧ (t.fields.map Prod.fst).Nodup ∧
          t.fields.map Prod.fst ⊆ n.fields.map Prod.fst)) := by
  cases hreplaces : ws.any Write.replaces with
  | true =>
    obtain ⟨t, ht⟩ := Option.isSome_iff_exists.1 (isSome_fold hne base)
    exact ⟨t, t, ht, (fold_of_replaces hreplaces old base).trans ht, .inl rfl⟩
  | false =>
    refine ⟨_, _, fold_of_not_replaces hreplaces hne base,
      fold_of_not_replaces hreplaces hne old, ?_⟩
    have hvoid : (base.getD (table [])).isVoid = true := by
      cases base with
      | none => rfl
      | some => exact hbase
    obtain ⟨hfields, hitems⟩ := nothing_of_isVoid hvoid
    generalize base.getD (table []) = b at hvoid hfields hitems ⊢
    generalize old.getD (table []) = root
    by_cases hins : ws.flatMap Write.inner = []
    · rw [hins]
      exact .inr (.inl ⟨hvoid, rfl⟩)
    generalize ws.flatMap Write.inner = ins at hins ⊢
    obtain heq | ⟨hall, hroot⟩ | ⟨hall, hroot⟩ := @runAll_cases ins hins root b
      (fun h => by rw [fields_of_not_table h, hfields])
      (fun h => by rw [items_of_not_list h, hitems])
    · exact .inl heq
    · obtain ⟨w, hw⟩ := List.exists_mem_of_ne_nil ins hins
      obtain ⟨key, hkey⟩ := exists_key (hall w hw)
      have hmixed : ¬ ToItems ins := fun hitem => by cases (hall w hw).symm.trans (hitem w hw)
      have hempty : runAll ins b = runAll ins (table []) := runAll_congr_fields hmixed hfields
      refine .inr (.inr (.inr ⟨isTable_runAll hall (.inl hins), isTable_runAll hall (.inl hins), ?_,
        nodup_runAll hall (by simp [hfields]), hempty ▸ keys_runAll_subset hall root⟩))
      have hmem := mem_keys_of_mem hall hw hkey b
      intro hnil
      rw [hnil] at hmem
      exact List.not_mem_nil hmem
    · exact .inr (.inr (.inl (isList_runAll hall (.inl hins))))

end Switchyard.Tree
