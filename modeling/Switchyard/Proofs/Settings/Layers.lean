import Switchyard.Proofs.Settings.Leaves

/-! Where each single setting comes from. A layer is put over what the layers below make: under the
name of a section there stands what the layer makes by itself, or the section below with what the
layer has put in place of its own. So a setting is what the environment has for it, or else what
the file has for it, or else its default. The file's section is left out where it cannot be kept:
the environment puts a value in its place, or gives it in another shape, with keys for a section
that is no table or with places in one that is no list. -/
namespace Switchyard

namespace Tree

/-- What counts of a section for places that are counted from the end. -/
def frame : Option Tree → Option Tree
  | some (list items) => some (list (List.replicate items.length nil))
  | _ => none

/-- What a layer makes by itself of a section that stands below. -/
def atop (layer : List (String × Tree)) (name : String) (below : Option Tree) : Option Tree :=
  fold (toKey (writes layer) name) (frame below)

/-- Writes leave what they do not write in a section: they replace nothing, and go to fields of a
table or to items of a list. -/
def keeps (ws : List Write) (below : Option Tree) : Bool :=
  let ins := ws.flatMap Write.inner
  !ws.any Write.replaces && (ins.all (!·.step.isField) || below.all isTable) &&
    (ins.all (·.step.isField) || below.any isList)

theorem get?_overlay (layer : List (String × Tree)) (root : Tree) (key : String) :
    (overlay layer root).get? key = fold (toKey (writes layer) key) (root.get? key) := by
  rw [overlay_eq, get?_runAll isField_of_mem_writes]

theorem get?_own (layer : List (String × Tree)) (key : String) :
    (own layer).get? key = fold (toKey (writes layer) key) none :=
  get?_overlay layer (table []) key

/-! ### Shapes -/

theorem frame_of_not_list {below : Option Tree} (h : below.any isList = false) :
    frame below = none := by
  match below, h with
  | none, _ => rfl
  | some nil, _ | some (bool _), _ | some (int _), _ | some (real _), _ | some (text _), _
  | some (table _), _ => rfl

theorem any_isList_of_all_isTable {below : Option Tree} (h : below.all isTable = true) :
    below.any isList = false := by
  cases below with
  | none => rfl
  | some => exact not_isList_of_isTable h

theorem all_isSection_of_all_isTable {below : Option Tree} (h : below.all isTable = true) :
    below.all isSection = true := by
  cases below with
  | none => rfl
  | some t =>
    obtain ⟨fields, rfl⟩ := eq_table h
    rfl

theorem isTable_getD (below : Option Tree) :
    (below.getD (table [])).isTable = below.all isTable := by
  cases below <;> rfl

theorem isList_getD (below : Option Tree) :
    (below.getD (table [])).isList = below.any isList := by
  cases below <;> rfl

theorem fields_frame (below : Option Tree) : ((frame below).getD (table [])).fields = [] := by
  unfold frame
  split <;> rfl

theorem all_isSection_frame (below : Option Tree) : (frame below).all isSection = true := by
  unfold frame
  split <;> rfl

theorem fold_eq_none {ws : List Write} {old : Option Tree} (h : fold ws old = none) :
    ws = [] ∧ old = none := by
  by_cases hne : ws = []
  · subst hne
    exact ⟨rfl, h⟩
  · simpa [h] using isSome_fold hne old

/-- Over a table, writes make what they make by themselves, or a table if they do so by
themselves. -/
theorem fold_over_table (ws : List Write) {old : Option Tree} (h : old.all isTable = true) :
    fold ws old = fold ws none ∨
      (fold ws old).all isTable = true ∧ (fold ws none).all isTable = true := by
  cases hreplaces : ws.any Write.replaces with
  | true => exact .inl (fold_of_replaces hreplaces old none)
  | false =>
    by_cases hne : ws = []
    · subst hne
      exact .inr ⟨h, rfl⟩
    have htable : (old.getD (table [])).isTable = true := by
      cases old with
      | none => rfl
      | some => exact h
    rw [fold_of_not_replaces hreplaces hne, fold_of_not_replaces hreplaces hne]
    by_cases hfields : ToFields (ws.flatMap Write.inner)
    · exact .inr ⟨isTable_runAll hfields (.inr htable), isTable_runAll hfields (.inr rfl)⟩
    · refine .inl (congrArg some (runAll_congr_items hfields ?_))
      rw [items_of_not_list (not_isList_of_isTable htable)]
      rfl

/-- A section that writes leave in the shape of one has that shape by themselves. -/
theorem all_isSection_over {ws : List Write} {old : Option Tree}
    (h : (fold ws old).all isSection = true) : (fold ws (frame old)).all isSection = true := by
  cases hreplaces : ws.any Write.replaces with
  | true => rwa [fold_of_replaces hreplaces _ old]
  | false =>
    by_cases hne : ws = []
    · rw [hne]
      exact all_isSection_frame old
    rw [fold_of_not_replaces hreplaces hne, Option.all_some]
    cases hlast : (ws.flatMap Write.inner).getLast? with
    | none =>
      rw [List.getLast?_eq_none_iff.1 hlast]
      have := all_isSection_frame old
      cases hframe : frame old with
      | none => rfl
      | some t => rwa [hframe] at this
    | some w =>
      obtain ⟨front, hfront⟩ := List.getLast?_eq_some_iff.1 hlast
      rw [hfront, runAll_append, runAll_cons, runAll_nil]
      cases hw : w.step.isField with
      | true =>
        obtain ⟨key, hkey⟩ := exists_key hw
        rw [w.run_field hkey]
        rfl
      | false =>
        obtain ⟨place, hplace⟩ := exists_place hw
        rw [w.run_item hplace]
        rfl

end Tree

open Switchyard.Tree

namespace Leaf

variable {l : Leaf} {s : Settings}

/-- What a layer by itself has for the setting, over a section below. -/
def ownValue? (l : Leaf) (layer : List (String × Tree)) (below : Option Tree) :
    Option (String × Tree) :=
  (l.valueOf (atop layer l.name below)).filter (!·.2.isVoid)

/-- What the environment has for the setting, or else the file. -/
def given? (l : Leaf) (file env : List (String × Tree)) : Option (String × Tree) :=
  let below := (own file).get? l.name
  (l.ownValue? env below).or
    (if keeps (toKey (writes env) l.name) below then l.ownValue? file none else none)

/-! ### Values of a section -/

theorem valueOf_of_isTable {t : Tree} (h : t.isTable = true) :
    l.valueOf (some t) = (t.get? l.key).map fun t => (l.name ++ "." ++ l.key, t) := by
  cases t <;> first | rfl | cases h

theorem valueOf_of_isList {t : Tree} (h : t.isList = true) :
    l.valueOf (some t) =
      t.items[l.place]?.map fun t => (l.name ++ "[" ++ Numeric.natText l.place ++ "]", t) := by
  cases t <;> first | rfl | cases h

theorem valueOf_getD (old : Option Tree) :
    l.valueOf (some (old.getD (table []))) = l.valueOf old := by
  cases old <;> rfl

theorem filter_valueOf_frame (l : Leaf) (below : Option Tree) :
    (l.valueOf (frame below)).filter (!·.2.isVoid) = none := by
  unfold frame
  split
  · rename_i items
    rw [valueOf_of_isList rfl, Tree.items, List.getElem?_replicate]
    split <;> rfl
  · rfl

theorem Takes.unique {given : Option (String × Tree)} {s' : Settings} (h : l.Takes given s)
    (h' : l.Takes given s') : l.get s = l.get s' := by
  cases given with
  | none => exact Eq.trans h (Eq.symm h')
  | some => exact Except.ok.inj (Eq.trans (Eq.symm h) h')

/-- From nothing, nothing is converted. -/
theorem Takes.filter_eq (hl : l ∈ all) {given : Option (String × Tree)} (h : l.Takes given s) :
    given.filter (!·.2.isVoid) = given := by
  cases given with
  | none => rfl
  | some value =>
    obtain ⟨label, t⟩ := value
    cases hvoid : t.isVoid with
    | false => simp [hvoid]
    | true =>
      match t, hvoid with
      | nil, _ => exact absurd h ((isPlain l hl).nil label _)
      | table [], _ =>
        obtain ⟨name, u, hnil, -⟩ := (isPlain l hl).table label [] _ h
        cases hnil

/-- A table that lacks no key of a table with one key has that key only, and counts as much. -/
theorem convert_of_subset (hl : l ∈ all) {label : String} {t n : Tree} (ht : t.isTable = true)
    (hn : n.isTable = true) (hne : t.fields ≠ []) (hnodup : (t.fields.map Prod.fst).Nodup)
    (hsubset : t.fields.map Prod.fst ⊆ n.fields.map Prod.fst)
    (h : l.convert label n = .ok (l.get s)) : l.convert label t = .ok (l.get s) := by
  match t, n with
  | table us, table ns =>
    obtain ⟨name, u, rfl, hname⟩ := (isPlain l hl).table label ns _ h
    match us, hne, hnodup, hsubset with
    | [(key, v)], _, _, hsubset =>
      obtain rfl : key = name := by simpa [fields] using hsubset
      exact hname v
    | first :: second :: rest, _, hnodup, hsubset =>
      have hmem : ∀ key, key ∈ (first :: second :: rest).map Prod.fst → key = name :=
        fun key hkey => by simpa [fields] using hsubset hkey
      have hfirst : first.1 = name := hmem _ (by simp)
      have hsecond : second.1 = name := hmem _ (by simp)
      simp [fields, hfirst, hsecond] at hnodup

/-! ### One layer -/

/-- Writes to the spot of a setting: it comes of what they make of nothing, or else of what stood
there. -/
theorem takes_of_spot (hl : l ∈ all) {label : String} {ws : List Write} {old base : Option Tree}
    (hbase : base.all isVoid = true) (h : l.Takes ((fold ws old).map (label, ·)) s) :
    l.Takes ((((fold ws base).map (label, ·)).filter (!·.2.isVoid)).or (old.map (label, ·))) s := by
  by_cases hne : ws = []
  · subst hne
    have hnothing : ((base.map (label, ·)).filter fun v : String × Tree => !v.2.isVoid) = none := by
      cases base with
      | none => rfl
      | some t => simp [show t.isVoid = true from hbase]
    rw [fold_nil] at h ⊢
    rwa [hnothing, Option.none_or]
  obtain ⟨t, n, ht, hn, hcases⟩ := fold_cases hne old hbase
  rw [hn, Option.map_some] at h
  rw [ht, Option.map_some]
  obtain rfl | ⟨hvoid, rfl⟩ | hlist | ⟨hntable, httable, hfields, hnodup, hsubset⟩ := hcases
  · rw [h.filter_eq hl]
    exact h
  · cases old with
    | none => cases h.filter_eq hl
    | some t' => simpa [hvoid, Option.filter] using h
  · match n, hlist with
    | list ts, _ => exact absurd h ((isPlain l hl).list label ts _)
  · have htakes : l.Takes (some (label, t)) s :=
      convert_of_subset hl httable hntable hfields hnodup hsubset h
    rw [htakes.filter_eq hl]
    exact htakes

/-- Writes to the fields of a table: the setting comes of what they make by themselves, or else of
what the table has for it. -/
theorem takes_of_fields (hl : l ∈ all) {ws : List Write} (hws : ToFields ws) {root : Tree}
    (hroot : root.isTable = true) (h : l.Takes (l.valueOf (some (runAll ws root))) s) :
    l.Takes (((l.valueOf (some (runAll ws (table [])))).filter (!·.2.isVoid)).or
      (l.valueOf (some root))) s := by
  rw [valueOf_of_isTable (isTable_runAll hws (.inr hroot)), get?_runAll hws] at h
  rw [valueOf_of_isTable (isTable_runAll hws (.inr rfl)), get?_runAll hws,
    valueOf_of_isTable hroot]
  exact takes_of_spot hl rfl h

/-- Writes to the items of a list: the setting comes of what they make of a list of nothing, or
else of what the list has for it. -/
theorem takes_of_items (hl : l ∈ all) {ws : List Write} (hws : ToItems ws) {items : List Tree}
    (h : l.Takes (l.valueOf (some (runAll ws (list items)))) s) :
    l.Takes (((l.valueOf (some (runAll ws (list (List.replicate items.length nil))))).filter
      (!·.2.isVoid)).or (l.valueOf (some (list items)))) s := by
  rw [valueOf_of_isList (isList_runAll hws (.inr rfl))] at h
  rw [valueOf_of_isList (isList_runAll hws (.inr rfl)), valueOf_of_isList rfl]
  have hlength : (List.replicate items.length nil).length = items.length := List.length_replicate
  have hitems : (list items).items = items := rfl
  by_cases hin : l.place < items.length
  · obtain ⟨ds, hds⟩ := exists_fold_item hws hin
    rw [hds items rfl] at h
    rw [hds _ hlength, hitems, List.getElem?_replicate, if_pos hin]
    exact takes_of_spot hl rfl h
  · have hbeyond : items.length ≤ l.place := Nat.not_lt.1 hin
    rw [← items_runAll_beyond hws hlength (hlength.symm ▸ hbeyond)] at h
    rw [h.filter_eq hl, hitems, List.getElem?_eq_none hbeyond]
    simpa using h

/-- What nothing of the section below counts for comes of the layer by itself. -/
theorem takes_of_eq (hl : l ∈ all) {given given' rest : Option (String × Tree)}
    (heq : given = given') (hrest : rest = none) (h : l.Takes given s) :
    l.Takes ((given'.filter (!·.2.isVoid)).or rest) s := by
  rwa [hrest, Option.or_none, ← heq, h.filter_eq hl]

/-- Writes to what stands in a section keep it if they are to items and it is a list, or to fields
and it is a table. -/
theorem keeps_iff {ws : List Write} (hne : ws.flatMap Write.inner ≠ []) (below : Option Tree) :
    keeps ws below = true ↔ ws.any Write.replaces = false ∧
      (ToItems (ws.flatMap Write.inner) ∧ below.any isList = true ∨
        ToFields (ws.flatMap Write.inner) ∧ below.all isTable = true) := by
  obtain ⟨w, hw⟩ := List.exists_mem_of_ne_nil _ hne
  rw [keeps]
  generalize ws.flatMap Write.inner = ins at hw ⊢
  have hmixed : ToItems ins → ¬ ToFields ins := fun hitems hfields => by
    cases (hitems w hw).symm.trans (hfields w hw)
  have hshape : below.all isTable = true → ¬ below.any isList = true := fun htable hlist => by
    cases (any_isList_of_all_isTable htable).symm.trans hlist
  have hitems : ins.all (!·.step.isField) = true ↔ ToItems ins := by simp [ToItems]
  have hfields : ins.all (·.step.isField) = true ↔ ToFields ins := by simp [ToFields]
  simp only [Bool.and_eq_true, Bool.or_eq_true, Bool.not_eq_true', hitems, hfields]
  tauto

/-- One layer over a section: the setting comes of what the layer has for it by itself, or else of
the section below, if that is kept. -/
theorem takes_of_fold (hl : l ∈ all) {ws : List Write} {old : Option Tree}
    (h : l.Takes (l.valueOf (fold ws old)) s) :
    l.Takes (((l.valueOf (fold ws (frame old))).filter (!·.2.isVoid)).or
      (if keeps ws old then l.valueOf old else none)) s := by
  by_cases hne : ws = []
  · subst hne
    simpa [keeps, filter_valueOf_frame] using h
  by_cases hreplaces : ws.any Write.replaces = true
  · exact takes_of_eq hl (by rw [fold_of_replaces hreplaces]) (if_neg (by simp [keeps, hreplaces])) h
  have hkept : ws.any Write.replaces = false := eq_false_of_ne_true hreplaces
  rw [fold_of_not_replaces hkept hne] at h ⊢
  by_cases hins : ws.flatMap Write.inner = []
  · rw [hins, runAll_nil, valueOf_getD] at h ⊢
    simpa [keeps, hkept, hins, filter_valueOf_frame] using h
  have hiff := keeps_iff hins old
  by_cases hitems : ToItems (ws.flatMap Write.inner) ∧ old.any isList = true
  · rw [if_pos (hiff.2 ⟨hkept, .inl hitems⟩)]
    match old, hitems.2 with
    | some (list items), _ => exact takes_of_items hl hitems.1 h
  by_cases hfields : ToFields (ws.flatMap Write.inner) ∧ old.all isTable = true
  · rw [if_pos (hiff.2 ⟨hkept, .inr hfields⟩),
      frame_of_not_list (any_isList_of_all_isTable hfields.2), ← valueOf_getD old]
    exact takes_of_fields hl hfields.1 ((isTable_getD old).trans hfields.2) h
  · -- nothing that stood below counts for the writes
    refine takes_of_eq hl ?_ (if_neg fun hkeeps => (hiff.1 hkeeps).2.elim hitems hfields) h
    have hfields' : (old.getD (table [])).isTable = false →
        (old.getD (table [])).fields = ((frame old).getD (table [])).fields :=
      fun hroot => (fields_of_not_table hroot).trans (fields_frame old).symm
    have hitems' : (old.getD (table [])).isList = false →
        (old.getD (table [])).items = ((frame old).getD (table [])).items := fun hroot => by
      rw [items_of_not_list hroot, frame_of_not_list ((isList_getD old).symm.trans hroot)]
      rfl
    obtain heq | ⟨hall, htable⟩ | ⟨hall, hlist⟩ := runAll_cases hins hfields' hitems'
    · rw [heq]
    · exact absurd ⟨hall, (isTable_getD old).symm.trans htable⟩ hfields
    · exact absurd ⟨hall, (isList_getD old).symm.trans hlist⟩ hitems

/-! ### Both layers -/

/-- A file over the defaults: the setting comes of what the file has for it, or is the default. -/
theorem takes_of_file (hl : l ∈ all) {file : List (String × Tree)}
    (h : l.Takes (l.value? (overlay file Settings.defaultTree)) s) :
    l.Takes (l.ownValue? file none) s := by
  rw [value?, get?_overlay] at h
  have htakes := takes_of_fold hl h
  rw [frame_of_not_list (any_isList_of_all_isTable (defaultTree_isTable l hl))] at htakes
  change l.Takes ((l.ownValue? file none).or _) s at htakes
  cases hfile : l.ownValue? file none with
  | some => rwa [hfile, Option.some_or] at htakes
  | none =>
    rw [hfile, Option.none_or] at htakes
    split at htakes
    · have hself := takes_default l hl
      rw [value?] at hself
      cases hvalue : l.valueOf (Settings.defaultTree.get? l.name) with
      | none => rwa [hvalue] at htakes
      | some value =>
        rw [hvalue] at hself htakes
        exact Except.ok.inj (Eq.trans (Eq.symm htakes) hself)
    · exact htakes

/-- The file over the defaults leaves a section as the file has it by itself, or both are tables. -/
theorem get?_file (hl : l ∈ all) (file : List (String × Tree)) :
    (overlay file Settings.defaultTree).get? l.name = (own file).get? l.name ∨
      ((overlay file Settings.defaultTree).get? l.name).all isTable = true ∧
        ((own file).get? l.name).all isTable = true := by
  rw [get?_overlay, get?_own]
  exact fold_over_table _ (defaultTree_isTable l hl)

/-- The environment over a file over the defaults. -/
theorem takes_given (hl : l ∈ all) {file : List (String × Tree)} {env : Environment}
    (h : l.Takes (l.value? (Settings.layered file env)) s) :
    l.Takes (l.given? file env.layer) s := by
  obtain ⟨below, hbelow⟩ : ∃ t, (overlay file Settings.defaultTree).get? l.name = t := ⟨_, rfl⟩
  have hfile (hvalue : l.Takes (l.valueOf below) s) : l.Takes (l.ownValue? file none) s :=
    takes_of_file hl (by rwa [value?, hbelow])
  have hsame : frame below = frame ((own file).get? l.name) ∧
      keeps (toKey (writes env.layer) l.name) below =
        keeps (toKey (writes env.layer) l.name) ((own file).get? l.name) := by
    rcases get?_file hl file with heq | ⟨htable, htable'⟩
    · rw [← hbelow, heq]
      exact ⟨rfl, rfl⟩
    · rw [hbelow] at htable
      have hlist := any_isList_of_all_isTable htable
      have hlist' := any_isList_of_all_isTable htable'
      rw [frame_of_not_list hlist, frame_of_not_list hlist', keeps, keeps, htable, htable', hlist,
        hlist']
      exact ⟨rfl, rfl⟩
  rw [value?, Settings.layered, get?_overlay, hbelow] at h
  have htakes := takes_of_fold hl h
  rw [hsame.1, hsame.2] at htakes
  change l.Takes ((l.ownValue? env.layer ((own file).get? l.name)).or _) s at htakes
  rw [given?]
  cases henv : l.ownValue? env.layer ((own file).get? l.name) with
  | some => rwa [henv, Option.some_or] at htakes
  | none =>
    rw [henv, Option.none_or] at htakes
    rw [Option.none_or]
    split
    · next hkeeps => exact hfile (by rwa [if_pos hkeeps] at htakes)
    · next hkeeps => rwa [if_neg hkeeps] at htakes

/-- What the environment makes of a section has the shape of one, and so has the file's section if
the environment makes nothing of it. -/
theorem isSection_layers (hl : l ∈ all) {file : List (String × Tree)} {env : Environment}
    (h : ((Settings.layered file env).get? l.name).all isSection = true) :
    let below := (own file).get? l.name
    (atop env.layer l.name below).all isSection = true ∧
      (atop env.layer l.name below = none → below.all isSection = true) := by
  intro below
  rw [Settings.layered, get?_overlay] at h
  rcases get?_file hl file with heq | ⟨htable, htable'⟩
  · rw [heq] at h
    refine ⟨all_isSection_over h, fun hnone => ?_⟩
    rw [(fold_eq_none hnone).1] at h
    exact h
  · have hover := all_isSection_over h
    rw [frame_of_not_list (any_isList_of_all_isTable htable)] at hover
    rw [atop, frame_of_not_list (any_isList_of_all_isTable htable')]
    exact ⟨hover, fun _ => all_isSection_of_all_isTable htable'⟩

end Leaf

end Switchyard
