import Switchyard.Proofs.Settings.Layers

/-! Variables as writes. A variable that names a setting gives it its text, whatever the variables
before it do, and the variables for one setting leave what the environment has for every other
one. -/
namespace Switchyard

open Switchyard.Tree

namespace Environment

/-! ### The writes of variables -/

/-- The steps that a variable leads along, with their keys in lower case. -/
def steps? (variable_ : String) : Option (List Step) :=
  (key? variable_).map fun key => (path key).map Step.lowered

def write? (v : String × String) : Option Write := (key? v.1).map fun key => write (key, value v.2)

theorem writes_layer (env : Environment) : writes env.layer = env.filterMap write? := by
  rw [layer, writes, List.map_filterMap]
  congr 1
  funext v
  rw [write?, Option.map_map]
  rfl

theorem steps_of_write? {v : String × String} {w : Write} (h : write? v = some w) :
    steps? v.1 = some (w.step :: w.path.map Step.lowered) ∧ w.value = value v.2 := by
  obtain ⟨key, hkey, rfl⟩ := Option.map_eq_some_iff.1 h
  obtain ⟨name, rest, hpath⟩ := exists_path key
  rw [steps?, hkey, Option.map_some, write, hpath]
  exact ⟨rfl, rfl⟩

theorem write?_of_steps {v : String × String} {first : Step} {rest : List Step}
    (h : steps? v.1 = some (first :: rest)) :
    ∃ path, path.map Step.lowered = rest ∧ write? v = some ⟨first, path, value v.2⟩ := by
  obtain ⟨key, hkey, hsteps⟩ := Option.map_eq_some_iff.1 h
  obtain ⟨name, path, hpath⟩ := exists_path key
  rw [hpath, List.map_cons, List.cons.injEq] at hsteps
  obtain ⟨rfl, rfl⟩ := hsteps
  refine ⟨path, rfl, ?_⟩
  rw [write?, hkey, Option.map_some, write, hpath]
  rfl

theorem exists_variable {env : Environment} {w : Write} (h : w ∈ writes env.layer) :
    ∃ v ∈ env, write? v = some w := by
  rw [writes_layer] at h
  exact List.mem_filterMap.1 h

/-- A text stands for a scalar. -/
theorem value_plain (text : String) : (value text).isTable = false ∧
    (value text).isList = false ∧ (value text).isVoid = false := by
  unfold value
  dsimp only
  split
  · exact ⟨rfl, rfl, rfl⟩
  · exact ⟨rfl, rfl, rfl⟩
  · split
    · exact ⟨rfl, rfl, rfl⟩
    · split <;> exact ⟨rfl, rfl, rfl⟩

/-- A variable that gives a section a scalar, or another shape than a step into it does. -/
def reshapes (name : String) (step : Step) (variable_ : String) : Bool :=
  match steps? variable_ with
  | some [.field n] => n = name
  | some (.field n :: other :: _) => n = name && other.isField != step.isField
  | _ => false

/-- A variable that gives a section by places. -/
def lists (name variable_ : String) : Bool :=
  match steps? variable_ with
  | some (.field n :: .item _ :: _) => n = name
  | _ => false

end Environment

namespace Leaf

variable {l : Leaf}

/-- A step from the section that may lead to the setting. A place that is counted from the end may
be any. -/
def isMeant (l : Leaf) : Step → Bool
  | .field key => key = l.key
  | .item place => place = l.place || place < 0

/-- A variable that may lead to the setting, or beyond it. -/
def isNamed (l : Leaf) (variable_ : String) : Bool :=
  match Environment.steps? variable_ with
  | some (.field name :: step :: _) => name = l.name && l.isMeant step
  | _ => false

/-! ### Writes of the environment to a section -/

/-- What a variable does to a section: it gives the section a scalar, or goes a step further. -/
theorem cases_of_write {env : Environment} {w : Write}
    (hw : w ∈ toKey (writes env.layer) l.name) :
    ∃ v ∈ env,
      (Environment.steps? v.1 = some [.field l.name] ∧ w.replaces = true ∧
        w.value = Environment.value v.2) ∨
      ∃ (step : Step) (path rest : List Step),
        Environment.steps? v.1 = some (.field l.name :: step :: rest) ∧ w.replaces = false ∧
          w.inner = [⟨step, path, Environment.value v.2⟩] := by
  obtain ⟨hmem, hstep⟩ := mem_toKey.1 hw
  obtain ⟨v, hv, hwrite⟩ := Environment.exists_variable hmem
  obtain ⟨hsteps, hvalue⟩ := Environment.steps_of_write? hwrite
  refine ⟨v, hv, ?_⟩
  rw [hstep] at hsteps
  cases hpath : w.path with
  | nil =>
    rw [hpath] at hsteps
    refine .inl ⟨hsteps, ?_, hvalue⟩
    simp [Write.replaces, hpath, hvalue, (Environment.value_plain v.2).1]
  | cons step path =>
    rw [hpath] at hsteps
    refine .inr ⟨step.lowered, path, _, hsteps, by simp [Write.replaces, hpath], ?_⟩
    rw [Write.inner, hpath, hvalue]

theorem after_of_inner {w w' : Write} (hreplaces : w.replaces = false) (hinner : w.inner = [w'])
    (old : Option Tree) : w.after old = w'.run (old.getD (table [])) := by
  rw [Write.after_eq, hreplaces, hinner]
  rfl

theorem after_of_replaces {w : Write} (hreplaces : w.replaces = true) (old : Option Tree) :
    w.after old = w.value := by
  rw [Write.after_eq, if_pos hreplaces]

/-! ### Settings that writes leave alone -/

/-- What stands in a section for the setting. -/
theorem valueOf_run_field {w : Write} {key : String} (hkey : w.step = .field key) (t : Tree) :
    l.valueOf (some (w.run t)) =
      (if key = l.key then some (w.after (t.get? key)) else t.get? l.key).map
        fun t => (l.name ++ "." ++ l.key, t) := by
  have hfield : w.step.isField = true := by
    rw [hkey]
    rfl
  rw [valueOf_of_isTable (w.isTable_run hfield t), get?_run hfield, hkey]
  by_cases h : key = l.key <;> simp [h]

theorem valueOf_run_item {w : Write} {k : Nat} (hplace : w.step = .item k) (t : Tree) :
    l.valueOf (some (w.run t)) =
      (if l.place = k then some (w.after t.items[k]?)
        else t.items[l.place]?.or (if l.place < k then some nil else none)).map
          fun t => (l.name ++ "[" ++ Numeric.natText l.place ++ "]", t) := by
  have hposition : position? (k : Int) t.items.length = some k := by simp [position?]
  rw [w.run_item hplace, valueOf_of_isList rfl, items, hposition]
  dsimp only
  rw [getElem?_setItem]

/-- That a section has nothing for the setting that anything could come of. -/
def LacksIn (l : Leaf) (section_ : Option Tree) : Prop :=
  (l.valueOf section_).all (·.2.isVoid) = true

theorem filter_eq_none_iff {section_ : Option Tree} :
    (l.valueOf section_).filter (!·.2.isVoid) = none ↔ l.LacksIn section_ := by
  rw [LacksIn]
  cases l.valueOf section_ with
  | none => simp
  | some p => simp [Option.filter]

theorem lacksIn_run {w : Write} (hw : l.isMeant w.step = false) {t : Tree}
    (h : l.LacksIn (some t)) : l.LacksIn (some (w.run t)) := by
  rw [LacksIn] at h ⊢
  cases hstep : w.step with
  | field key =>
    have hne : key ≠ l.key := by simpa [isMeant, hstep] using hw
    rw [valueOf_run_field hstep, if_neg hne]
    cases htable : t.isTable with
    | true => rwa [valueOf_of_isTable htable] at h
    | false =>
      rw [get?_of_not_table htable]
      rfl
  | item place =>
    obtain ⟨hne, hsign⟩ : place ≠ l.place ∧ 0 ≤ place := by simpa [isMeant, hstep] using hw
    obtain ⟨k, rfl⟩ := Int.eq_ofNat_of_zero_le hsign
    have hne' : l.place ≠ k := fun heq => hne (by rw [heq])
    rw [valueOf_run_item hstep, if_neg hne']
    cases hlist : t.isList with
    | true =>
      rw [valueOf_of_isList hlist] at h
      cases hitem : t.items[l.place]? with
      | none => split <;> rfl
      | some u => simpa [hitem] using h
    | false =>
      rw [items_of_not_list hlist]
      simp only [List.getElem?_nil, Option.none_or]
      split <;> rfl

/-- What stands under the key of a section that is no list. -/
theorem valueOf_of_not_list {section_ : Option Tree} (h : section_.any isList = false) :
    l.valueOf section_ =
      (section_.bind (·.get? l.key)).map fun t => (l.name ++ "." ++ l.key, t) := by
  cases section_ with
  | none => rfl
  | some t =>
    cases t with
    | list => cases h
    | _ => rfl

/-- A scalar is no section, and so it has nothing. -/
theorem valueOf_of_plain {t : Tree} (htable : t.isTable = false) (hlist : t.isList = false) :
    l.valueOf (some t) = none := by
  cases t with
  | table => cases htable
  | list => cases hlist
  | _ => rfl

theorem lacksIn_fold {ws : List Write} (h : ∀ w ∈ ws, ∀ old, l.LacksIn old →
    l.LacksIn (some (w.after old))) {old : Option Tree} (hold : l.LacksIn old) :
    l.LacksIn (fold ws old) := by
  induction ws generalizing old with
  | nil => exact hold
  | cons w ws ih =>
    obtain ⟨hw, hws⟩ := List.forall_mem_cons.1 h
    exact ih hws (hw old hold)

/-- Without a variable for it the environment has nothing for a setting. -/
theorem ownValue?_eq_none {env : Environment} (h : ∀ v ∈ env, l.isNamed v.1 = false)
    (below : Option Tree) : l.ownValue? env.layer below = none := by
  rw [ownValue?, filter_eq_none_iff, atop]
  refine lacksIn_fold (fun w hw old hold => ?_)
    (filter_eq_none_iff.1 (filter_valueOf_frame l below))
  obtain ⟨v, hv, ⟨-, hreplaces, hvalue⟩ | ⟨step, path, rest, hsteps, hreplaces, hinner⟩⟩ :=
    cases_of_write hw
  · obtain ⟨htable, hlist, -⟩ := Environment.value_plain v.2
    rw [after_of_replaces hreplaces, hvalue, LacksIn, valueOf_of_plain htable hlist]
    rfl
  · rw [after_of_inner hreplaces hinner]
    refine lacksIn_run (by simpa [isNamed, hsteps] using h v hv) ?_
    rwa [LacksIn, valueOf_getD]

/-! ### The last variable for a setting -/

/-- The shape that a section has behind a step. -/
def Suits (step : Step) (t : Tree) : Prop :=
  if step.isField then t.isTable = true else t.isList = true

/-- What stands for a setting remains as long as the section keeps its shape. -/
theorem valueOf_run_of_suits {w : Write} (hw : l.isMeant w.step = false) {t : Tree}
    (hsuits : Suits w.step t) {value : String × Tree} (h : l.valueOf (some t) = some value) :
    Suits w.step (w.run t) ∧ l.valueOf (some (w.run t)) = some value := by
  cases hstep : w.step with
  | field key =>
    have hne : key ≠ l.key := by simpa [isMeant, hstep] using hw
    have htable : t.isTable = true := by simpa [Suits, hstep, Step.isField] using hsuits
    refine ⟨w.isTable_run (by rw [hstep]; rfl) t, ?_⟩
    rw [valueOf_run_field hstep, if_neg hne, ← valueOf_of_isTable htable, h]
  | item place =>
    obtain ⟨hne, hsign⟩ : place ≠ l.place ∧ 0 ≤ place := by simpa [isMeant, hstep] using hw
    obtain ⟨k, rfl⟩ := Int.eq_ofNat_of_zero_le hsign
    have hne' : l.place ≠ k := fun heq => hne (by rw [heq])
    have hlist : t.isList = true := by simpa [Suits, hstep, Step.isField] using hsuits
    refine ⟨w.isList_run (by rw [hstep]; rfl) t, ?_⟩
    rw [valueOf_of_isList hlist] at h
    obtain ⟨u, hu, rfl⟩ := Option.map_eq_some_iff.1 h
    rw [valueOf_run_item hstep, if_neg hne', hu]
    rfl

theorem fold_of_spares {step : Step} {ws : List Write}
    (h : ∀ w ∈ ws, ∃ w', w.replaces = false ∧ w.inner = [w'] ∧ l.isMeant w'.step = false ∧
      w'.step.isField = step.isField) {t : Tree} (hsuits : Suits step t) {value : String × Tree}
    (hvalue : l.valueOf (some t) = some value) : l.valueOf (fold ws (some t)) = some value := by
  induction ws generalizing t with
  | nil => exact hvalue
  | cons w ws ih =>
    obtain ⟨⟨w', hreplaces, hinner, hmeant, hkind⟩, hws⟩ := List.forall_mem_cons.1 h
    have hsuits' : Suits w'.step t := by rwa [Suits, hkind]
    obtain ⟨hafter, hkeeps⟩ := valueOf_run_of_suits hmeant hsuits' hvalue
    rw [fold_cons, after_of_inner hreplaces hinner]
    exact ih hws (by rwa [Suits, hkind] at hafter) hkeeps

/-- The last variable for a setting gives it what its text stands for. -/
theorem ownValue?_of_last {before after : Environment} {v : String × String} {step : Step}
    (hv : Environment.steps? v.1 = some [.field l.name, step])
    (hstep : step = .field l.key ∨ step = .item l.place)
    (hafter : ∀ u ∈ after, Environment.reshapes l.name step u.1 = false ∧ l.isNamed u.1 = false)
    (below : Option Tree) :
    (l.ownValue? (Environment.layer (before ++ v :: after)) below).map (·.2) =
      some (Environment.value v.2) := by
  obtain ⟨path, hpath, hwrite⟩ := Environment.write?_of_steps hv
  obtain ⟨first, rfl, rfl⟩ := List.map_eq_singleton_iff.1 hpath
  obtain ⟨htable, -, hvoid⟩ := Environment.value_plain v.2
  have hspares : ∀ w ∈ toKey (writes after.layer) l.name, ∃ w', w.replaces = false ∧
      w.inner = [w'] ∧ l.isMeant w'.step = false ∧ w'.step.isField = first.lowered.isField := by
    intro w hw
    obtain ⟨u, hu, ⟨hsteps, -⟩ | ⟨other, path, rest, hsteps, hreplaces, hinner⟩⟩ :=
      cases_of_write hw
    · simpa [Environment.reshapes, hsteps] using (hafter u hu).1
    · obtain ⟨hreshapes, hnamed⟩ := hafter u hu
      refine ⟨_, hreplaces, hinner, by simpa [isNamed, hsteps] using hnamed, ?_⟩
      simpa [Environment.reshapes, hsteps] using hreshapes
  have hwrites : toKey (writes (Environment.layer (before ++ v :: after))) l.name =
      toKey (writes before.layer) l.name ++
        ⟨.field l.name, [first], Environment.value v.2⟩ :: toKey (writes after.layer) l.name := by
    simp [Environment.writes_layer, toKey, hwrite]
  obtain ⟨old, hold⟩ : ∃ old, fold (toKey (writes before.layer) l.name) (frame below) = old :=
    ⟨_, rfl⟩
  -- right after the variable the section has the shape that it needs, and the value
  obtain ⟨label, hsuits, hvalue⟩ : ∃ label,
      Suits first.lowered (Write.after ⟨.field l.name, [first], Environment.value v.2⟩ old) ∧
        l.valueOf (some (Write.after ⟨.field l.name, [first], Environment.value v.2⟩ old)) =
          some (label, Environment.value v.2) := by
    rw [after_of_inner rfl rfl]
    have hset (t? : Option Tree) :
        Write.after ⟨first.lowered, [], Environment.value v.2⟩ t? = Environment.value v.2 := by
      rw [Write.after_eq, if_pos (by simp [Write.replaces, htable])]
    rcases hstep with hstep | hstep
    · refine ⟨_, ?_, by rw [valueOf_run_field hstep, if_pos rfl, hset]; rfl⟩
      rw [hstep]
      exact Write.isTable_run rfl _
    · refine ⟨_, ?_, by rw [valueOf_run_item hstep, if_pos rfl, hset]; rfl⟩
      rw [hstep]
      exact Write.isList_run rfl _
  rw [ownValue?, atop, hwrites, fold, List.foldl_append, List.foldl_cons, ← fold, ← fold, hold,
    fold_of_spares hspares hsuits hvalue]
  simp [hvoid]

/-! ### Variables for other settings -/

/-- A write to a section that goes to the setting, or beyond it. -/
def isFor (l : Leaf) (w : Write) : Bool :=
  w.step = .field l.name && (w.path.head?.map Step.lowered).any l.isMeant

theorem isNamed_of_write? {v : String × String} {w : Write} (h : Environment.write? v = some w) :
    l.isNamed v.1 = l.isFor w := by
  rw [isNamed, (Environment.steps_of_write? h).1, isFor]
  cases hstep : w.step with
  | field name => cases hpath : w.path <;> simp
  | item => simp

theorem writes_filter (l : Leaf) (env : Environment) :
    writes (Environment.layer (env.filter (!l.isNamed ·.1))) =
      (writes env.layer).filter (!l.isFor ·) := by
  rw [Environment.writes_layer, Environment.writes_layer, List.filterMap_filter,
    List.filter_filterMap]
  congr 1
  funext v
  cases hv : Environment.write? v with
  | none => simp
  | some w =>
    rw [isNamed_of_write? hv]
    cases hw : l.isFor w <;> simp [Option.filter, hw]

section Apart

variable {l' : Leaf} {env env' : Environment}
  (hsame : env.filter (!l.isNamed ·.1) = env'.filter (!l.isNamed ·.1))

include hsame in
theorem toKey_writes_filter (name : String) :
    (toKey (writes env.layer) name).filter (!l.isFor ·) =
      (toKey (writes env'.layer) name).filter (!l.isFor ·) := by
  have hwrites := congrArg (fun env => toKey (writes (Environment.layer env)) name) hsame
  simp only [writes_filter, toKey, List.filter_filter] at hwrites ⊢
  simpa only [Bool.and_comm] using hwrites

include hsame in
theorem toKey_writes_of_ne {name : String} (h : name ≠ l.name) :
    toKey (writes env.layer) name = toKey (writes env'.layer) name := by
  have hall (env : Environment) :
      (toKey (writes env.layer) name).filter (!l.isFor ·) = toKey (writes env.layer) name := by
    apply List.filter_eq_self.2
    intro w hw
    simp [isFor, (mem_toKey.1 hw).2, h]
  have htoKey := toKey_writes_filter hsame name
  rwa [hall, hall] at htoKey

/-- What a variable that gives no list does to a section: it gives the section a scalar, or writes
to a field. -/
def IsPlainWrite (w : Write) : Prop :=
  (w.replaces = true ∧ w.value.isList = false) ∨
    ∃ key path value, w.replaces = false ∧ w.inner = [⟨.field key, path, value⟩]

theorem isPlainWrite {env : Environment}
    (h : ∀ v ∈ env, Environment.lists l.name v.1 = false) :
    ∀ w ∈ toKey (writes env.layer) l.name, IsPlainWrite w := by
  intro w hw
  obtain ⟨v, hv, ⟨-, hreplaces, hvalue⟩ | ⟨step, path, rest, hsteps, hreplaces, hinner⟩⟩ :=
    cases_of_write hw
  · exact .inl ⟨hreplaces, hvalue ▸ (Environment.value_plain v.2).2.1⟩
  · cases step with
    | field key => exact .inr ⟨key, path, _, hreplaces, hinner⟩
    | item => simpa [Environment.lists, hsteps] using h v hv

theorem get?_after {w : Write} {key : String} {path : List Step} {value : Tree}
    (hreplaces : w.replaces = false) (hinner : w.inner = [⟨.field key, path, value⟩])
    (old : Option Tree) (k : String) :
    (w.after old).get? k =
      if key = k then some (Write.after ⟨.field key, path, value⟩ (old.bind (·.get? k)))
      else old.bind (·.get? k) := by
  have hold : (old.getD (table [])).get? k = old.bind (·.get? k) := by
    cases old <;> rfl
  rw [after_of_inner hreplaces hinner, get?_run rfl, hold]
  by_cases h : key = k <;> simp [h]

theorem isList_after {w : Write} (h : IsPlainWrite w) (old : Option Tree) :
    (w.after old).isList = false := by
  obtain ⟨hreplaces, hvalue⟩ | ⟨key, path, value, hreplaces, hinner⟩ := h
  · rw [after_of_replaces hreplaces, hvalue]
  · rw [after_of_inner hreplaces hinner]
    exact not_isList_of_isTable (Write.isTable_run rfl _)

theorem isList_fold {ws : List Write} (h : ∀ w ∈ ws, IsPlainWrite w) :
    (fold ws none).any isList = false := by
  have hall (old : Option Tree) (hold : old.any isList = false) :
      (fold ws old).any isList = false := by
    induction ws generalizing old with
    | nil => exact hold
    | cons w ws ih =>
      obtain ⟨hw, hws⟩ := List.forall_mem_cons.1 h
      exact ih hws _ (isList_after hw old)
  exact hall none rfl

/-- A write that goes to one field of a section leaves the others. -/
theorem get?_after_of_isFor {w : Write} (h : IsPlainWrite w) (hfor : l.isFor w = true)
    {k : String} (hk : k ≠ l.key) (old : Option Tree) :
    (w.after old).get? k = old.bind (·.get? k) := by
  obtain ⟨step, path, value⟩ := w
  cases path with
  | nil => simp [isFor] at hfor
  | cons next path =>
    obtain ⟨hreplaces, -⟩ | ⟨key, path', value', hreplaces, hinner⟩ := h
    · simp [Write.replaces] at hreplaces
    · obtain ⟨hnext, rfl, rfl⟩ : next.lowered = .field key ∧ path = path' ∧ value = value' := by
        simpa [Write.inner] using hinner
      have hkey : key = l.key := by
        simp only [isFor, List.head?_cons, Option.map_some, hnext, Option.any_some, isMeant,
          Bool.and_eq_true, decide_eq_true_eq] at hfor
        exact hfor.2
      rw [get?_after hreplaces hinner, if_neg fun heq => hk (heq.symm.trans hkey)]

/-- Writes that go to one field can be left out for the others. -/
theorem get?_fold_filter {ws : List Write} (h : ∀ w ∈ ws, IsPlainWrite w) {k : String}
    (hk : k ≠ l.key) {old old' : Option Tree}
    (hold : old.bind (·.get? k) = old'.bind (·.get? k)) :
    (fold (ws.filter (!l.isFor ·)) old).bind (·.get? k) = (fold ws old').bind (·.get? k) := by
  induction ws generalizing old old' with
  | nil => exact hold
  | cons w ws ih =>
    obtain ⟨hw, hws⟩ := List.forall_mem_cons.1 h
    rw [fold_cons]
    cases hfor : l.isFor w with
    | true =>
      rw [List.filter_cons_of_neg (by simp [hfor])]
      exact ih hws (by rw [Option.bind_some, get?_after_of_isFor hw hfor hk, hold])
    | false =>
      rw [List.filter_cons_of_pos (by simp [hfor]), fold_cons]
      apply ih hws
      rw [Option.bind_some, Option.bind_some]
      obtain ⟨hreplaces, -⟩ | ⟨key, path, value, hreplaces, hinner⟩ := hw
      · rw [after_of_replaces hreplaces, after_of_replaces hreplaces]
      · rw [get?_after hreplaces hinner, get?_after hreplaces hinner, hold]

theorem any_replaces_filter (l : Leaf) (ws : List Write) :
    (ws.filter (!l.isFor ·)).any Write.replaces = ws.any Write.replaces := by
  rw [List.any_filter]
  congr 1
  funext w
  cases hw : l.isFor w with
  | true =>
    cases hpath : w.path with
    | nil => simp [isFor, hpath] at hw
    | cons => simp [Write.replaces, hpath]
  | false => rfl

/-- A section that is a table below is kept by all writes that put no scalar in its place. -/
theorem keeps_of_plain {ws : List Write} (h : ∀ w ∈ ws, IsPlainWrite w) {below : Option Tree}
    (htable : below.all isTable = true) : keeps ws below = !ws.any Write.replaces := by
  rw [keeps, htable]
  cases hany : ws.any Write.replaces with
  | true => rfl
  | false =>
    have hfields : (ws.flatMap Write.inner).all (·.step.isField) = true := by
      rw [List.all_flatMap, List.all_eq_true]
      intro w hw
      obtain ⟨hreplaces, -⟩ | ⟨key, path, value, -, hinner⟩ := h w hw
      · cases (List.any_eq_false.1 hany w hw) hreplaces
      · rw [hinner]
        rfl
    simp [hfields]

include hsame in
/-- Variables for one setting leave what is given for another one; in the same section they do so
where the file gives it as a table or not at all, and the environment not by places. -/
theorem given?_congr {file : List (String × Tree)} (hne : l'.name = l.name → l'.key ≠ l.key)
    (hfile : l'.name = l.name → ((own file).get? l.name).all isTable = true)
    (hlists : l'.name = l.name → ∀ v ∈ env ++ env', Environment.lists l.name v.1 = false) :
    l'.given? file env.layer = l'.given? file env'.layer := by
  by_cases hname : l'.name = l.name
  · simp only [given?, ownValue?, atop, hname]
    have htable := hfile hname
    obtain ⟨hplain, hplain'⟩ := List.forall_mem_append.1 (hlists hname)
    have hwrites := isPlainWrite (l := l) hplain
    have hwrites' := isPlainWrite (l := l) hplain'
    have hfilter := toKey_writes_filter hsame l.name
    generalize toKey (writes env.layer) l.name = ws at hwrites hfilter ⊢
    generalize toKey (writes env'.layer) l.name = ws' at hwrites' hfilter ⊢
    generalize (own file).get? l.name = below at htable ⊢
    have hvalue : l'.valueOf (fold ws none) = l'.valueOf (fold ws' none) := by
      rw [valueOf_of_not_list (isList_fold hwrites), valueOf_of_not_list (isList_fold hwrites'),
        ← get?_fold_filter hwrites (hne hname) rfl, hfilter,
        get?_fold_filter hwrites' (hne hname) rfl]
    rw [frame_of_not_list (any_isList_of_all_isTable htable), hvalue, keeps_of_plain hwrites htable,
      keeps_of_plain hwrites' htable, ← any_replaces_filter l ws, hfilter, any_replaces_filter]
  · simp only [given?, ownValue?, atop, toKey_writes_of_ne hsame hname]

end Apart

end Leaf

end Switchyard
