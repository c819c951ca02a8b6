import Switchyard.Proofs.Settings.Variables

/-! Loading settings. Each single setting is what the environment has for it, or else what the file
has for it, or else its default; a variable for one setting moves no other one, unless the section
changes its shape for it; and what cannot be converted or does not meet the conditions is a
fault. -/
namespace Switchyard

open Switchyard.Tree

namespace Settings

theorem loadFrom_of_file {path : Bytes} {d : Directory} {env : Environment} {name : String}
    (hname : Text.ofBytes? path = some name) :
    loadFrom path d env = (fileLayer d name).bind (ofLayers · env) := by
  rw [loadFrom, hname]
  rfl

/-- Settings are loaded from the fields of the file and the environment, if the file can be parsed.
They have, each of them, what the environment gives, or else what the file gives, or else the
default, and no others do; and they meet the conditions. The environment gives what the last
variable for a setting stands for, and nothing without one. Settings come of both layers just if no
key counts back beyond a list, every section and every setting of the tree of all layers can be
converted and the conditions are met. Environments that differ in the variables for one setting give
the same for every other one. A map has its fields and an environment its variables in no fixed
order, so this is said of both in every order. -/
theorem layers_override (path : Bytes) (d : Directory) (env : Environment) :
    ((∀ s, loadFrom path d env = .ok s → ∃ name file, Text.ofBytes? path = some name ∧
        fileLayer d name = .ok file ∧ ofLayers file env = .ok s) ∧
      ∀ name, Text.ofBytes? path = some name →
        (∀ file, fileLayer d name = .ok file → loadFrom path d env = ofLayers file env) ∧
        ∀ fault, fileLayer d name = .error fault → loadFrom path d env = .error fault) ∧
    (∀ file s, ofLayers file env = .ok s → s.IsSound ∧ ∀ l ∈ Leaf.all,
      let below := (own file).get? l.name
      l.Takes (l.given? file env.layer) s ∧
        (atop env.layer l.name below).all isSection = true ∧
        (atop env.layer l.name below = none → below.all isSection = true)) ∧
    (∀ s s' file, (∀ l ∈ Leaf.all, l.Takes (l.given? file env.layer) s) →
      (∀ l ∈ Leaf.all, l.Takes (l.given? file env.layer) s') → s = s') ∧
    (∀ (l : Leaf) before v after step, env = before ++ v :: after →
      Environment.steps? v.1 = some [.field l.name, step] →
      step = .field l.key ∨ step = .item l.place →
      (∀ u ∈ after, Environment.reshapes l.name step u.1 = false ∧ l.isNamed u.1 = false) →
      ∀ below, (l.ownValue? env.layer below).map (·.2) = some (Environment.value v.2)) ∧
    (∀ l : Leaf, (∀ v ∈ env, l.isNamed v.1 = false) →
      ∀ below, l.ownValue? env.layer below = none) ∧
    (∀ file s, ofLayers file env = .ok s ↔ countsBeyond file env = false ∧ s.IsSound ∧
      ∀ l ∈ Leaf.all, l.Reads (layered file env) s) ∧
    ∀ file env' s s', ofLayers file env = .ok s → ofLayers file env' = .ok s' →
      ∀ l l' : Leaf, l' ∈ Leaf.all → (l'.name = l.name → l'.key ≠ l.key) →
        (l'.name = l.name → ((own file).get? l.name).all isTable = true) →
        (l'.name = l.name → ∀ v ∈ env ++ env', Environment.lists l.name v.1 = false) →
        env.filter (!l.isNamed ·.1) = env'.filter (!l.isNamed ·.1) → l'.get s = l'.get s' := by
  refine ⟨⟨fun s h => loadFrom_eq_ok_iff.1 h, fun name hname => ⟨fun file hfile => ?_,
      fun fault hfault => ?_⟩⟩, fun file s h => ?_,
    fun s s' file h h' => Leaf.eq_of_get fun l hl => (h l hl).unique (h' l hl),
    fun l before v after step henv hv hstep hafter below =>
      henv ▸ Leaf.ownValue?_of_last hv hstep hafter below,
    fun l h below => Leaf.ownValue?_eq_none h below, fun file s => ofLayers_eq_ok_iff,
    fun file env' s s' h h' l l' hl' hne htable hlists hsame => ?_⟩
  · rw [loadFrom_of_file hname, hfile]
    rfl
  · rw [loadFrom_of_file hname, hfault]
    rfl
  · obtain ⟨-, hsound, hreads⟩ := ofLayers_eq_ok_iff.1 h
    exact ⟨hsound, fun l hl =>
      ⟨Leaf.takes_given hl (hreads l hl).2, Leaf.isSection_layers hl (hreads l hl).1⟩⟩
  · obtain ⟨-, -, hreads⟩ := ofLayers_eq_ok_iff.1 h
    obtain ⟨-, -, hreads'⟩ := ofLayers_eq_ok_iff.1 h'
    have htakes := Leaf.takes_given hl' (hreads l' hl').2
    have htakes' := Leaf.takes_given hl' (hreads' l' hl').2
    rw [← Leaf.given?_congr hsame hne htable hlists] at htakes'
    exact htakes.unique htakes'

/-- A variable for the port gives the port and leaves the host that the file gives. -/
theorem layers_override_port :
    let d := Directory.ofList [("c.toml", Text.bytes "[server]\nhost = \"h\"\nport = 9090\n")]
    let env := [("MESH_GATEWAY__SERVER__PORT", "7000")]
    let port : Leaf := ⟨"server", 1, "port", word16, (·.server.port)⟩
    (port.ownValue? (Environment.layer env) none).map (·.2) = some (.int 7000) ∧
    ∃ s s', loadFrom (Text.bytes "c.toml") d [] = .ok s ∧
      loadFrom (Text.bytes "c.toml") d env = .ok s' ∧ s'.IsSound ∧
      s.server = ⟨"h", 9090⟩ ∧ s'.server.host = s.server.host ∧ s'.server.port = 7000 := by
  intro d env port
  have hfile : (loadFrom (Text.bytes "c.toml") d []).toOption =
      some { server := ⟨"h", 9090⟩ } := by decide +kernel
  have henv : (loadFrom (Text.bytes "c.toml") d env).toOption.map (·.server.port) =
      some 7000 := by decide +kernel
  have hopen : (fileLayer d "c.toml").toOption.map
      (fun file => ((own file).get? "server").all isTable) = some true := by decide +kernel
  have hsteps : Environment.steps? "MESH_GATEWAY__SERVER__PORT" =
      some [.field "server", .field "port"] := by
    decide +kernel
  have hnamed : env.filter (!port.isNamed ·.1) = [] := by decide +kernel
  have hlists : ∀ v ∈ env, Environment.lists "server" v.1 = false := by decide +kernel
  obtain ⟨⟨hloaded, hsame⟩, -, -, -, -, -, hapart⟩ := layers_override (Text.bytes "c.toml") d []
  obtain ⟨⟨hloaded', hsame'⟩, htakes, -, hlast, -⟩ := layers_override (Text.bytes "c.toml") d env
  have hlower : "7000".map Char.toLower = "7000" := by decide +kernel
  have hread : (Numeric.readInt "7000".toList).filter Numeric.fitsWord = some 7000 := by
    decide +kernel
  have hvalue : Environment.value "7000" = .int 7000 := by
    simp only [Environment.value, hlower, hread]
    rfl
  refine ⟨hvalue ▸ hlast port [] ("MESH_GATEWAY__SERVER__PORT", "7000") [] _ rfl hsteps (.inl rfl)
    (List.forall_mem_nil _) none, ?_⟩
  cases h : loadFrom (Text.bytes "c.toml") d [] with
  | error => simp [h, Except.toOption] at hfile
  | ok s =>
    cases h' : loadFrom (Text.bytes "c.toml") d env with
    | error => simp [h', Except.toOption] at henv
    | ok s' =>
      obtain ⟨name, file, hname, hlayer, hs⟩ := hloaded s h
      have hs' : ofLayers file env = .ok s' := ((hsame' name hname).1 file hlayer).symm.trans h'
      obtain rfl : "c.toml" = name := Option.some.inj ((Text.ofBytes?_bytes _).symm.trans hname)
      have htable : ((own file).get? "server").all isTable = true := by
        simpa [hlayer, Except.toOption] using hopen
      have hhost := hapart file env s s' hs hs' port
        ⟨"server", 0, "host", string, (·.server.host)⟩ (by simp [Leaf.all, Leaf.server])
        (by simp [port]) (fun _ => htable) (fun _ => hlists) hnamed.symm
      obtain rfl : s = { server := ⟨"h", 9090⟩ } := by simpa [h, Except.toOption] using hfile
      exact ⟨_, s', rfl, rfl, (htakes file s' hs').1, rfl, Eq.symm hhost,
        by simpa [h', Except.toOption] using henv⟩

/-- A section that the file gives as a list or a scalar starts anew once the environment has one of
its keys, and a table does so once the environment has one of its places; a place before the first
ends the program; and an empty table leaves a default in its place. -/
theorem section_starts_anew :
    let path := Text.bytes "c.toml"
    let env := [("MESH_GATEWAY__SERVER__PORT", "7000")]
    let first := [("MESH_GATEWAY__SERVER[0]", "h")]
    let back := [("MESH_GATEWAY__SERVER[-1]", "7000")]
    let listed := Directory.ofList [("c.toml", Text.bytes "server = [\"h\", 9090]\n")]
    let scalar := Directory.ofList [("c.toml", Text.bytes "server = 5\n")]
    let keyed := Directory.ofList [("c.toml", Text.bytes "[server]\nport = 9090\n")]
    let empty := Directory.ofList [("c.toml", Text.bytes "[server.port]\n")]
    (loadFrom path listed []).toOption.map (·.server) = some ⟨"h", 9090⟩ ∧
    (loadFrom path listed env).toOption.map (·.server) = some ⟨"0.0.0.0", 7000⟩ ∧
    (loadFrom path listed back).toOption.map (·.server) = some ⟨"h", 7000⟩ ∧
    (loadFrom path scalar []).toOption = none ∧
    (loadFrom path scalar env).toOption.map (·.server) = some ⟨"0.0.0.0", 7000⟩ ∧
    (loadFrom path keyed first).toOption.map (·.server) = some ⟨"h", 8080⟩ ∧
    (match loadFrom path keyed back with | .error f => some f | .ok _ => none) = some .crash ∧
    (loadFrom path empty []).toOption.map (·.server) = some ⟨"0.0.0.0", 8080⟩ := by
  decide +kernel

end Settings

end Switchyard
