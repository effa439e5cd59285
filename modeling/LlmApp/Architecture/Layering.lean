/-
# Layers descend

What the validation of the workspace establishes. A report without violations
says that every package lies in the home of a layer and that every dependency
is permitted there (`validateMetadata_isValid`). From that it follows for
chains of production dependencies, which the validation never walks: they have
no cycle, they go down in the order of the layers, an application reaches what
is below it through the application engine, and nothing that a portable package
reaches uses vendor code outside the reviewed list (`production_chains`).

Key definitions: `Layer.Home`, `Layer.Sees`, `Metadata.LiesIn`, `Metadata.Layered`,
`Metadata.Production`.
Key theorems: `classifyManifest_eq_some`, `validateMetadata_isValid`,
`production_chains`.
-/
import LlmApp.Data.Acyclic
import LlmApp.Architecture.Policy

open Relation

namespace LlmApp.Architecture

/-! ### Where a package may lie -/

/-- The directories of a layer, below the root of the workspace. -/
def Layer.Home : Layer → Path → Prop
  | .root, directory => directory = []
  | .featureFoundation, directory => directory = names ["crates", "features", "domain-contracts"]
  | .featureAlgorithm, directory =>
    ∃ component, component ≠ .normal "domain-contracts" ∧ directory = names ["crates", "features"] ++ [component]
  | .adapter, directory => ∃ component, directory = names ["crates", "adapters"] ++ [component]
  | .engineFoundation, directory => directory = names ["crates", "engines", "inference-runtime"]
  | .engineApplication, directory =>
    ∃ component, component ≠ .normal "inference-runtime" ∧ directory = names ["crates", "engines"] ++ [component]
  | .application, directory => ∃ component, directory = names ["crates", "apps"] ++ [component]

namespace Path

theorem stripPrefix_eq_some {path base relative : Path} :
    path.stripPrefix base = some relative ↔ path = base ++ relative := by
  unfold stripPrefix
  constructor
  · intro h
    split_ifs at h with hprefix
    obtain ⟨rest, rfl⟩ := hprefix
    rw [List.drop_left] at h
    rw [Option.some.inj h]
  · rintro rfl
    rw [if_pos (List.prefix_append ..), List.drop_left]

theorem fileName_eq_some {path : Path} {name : String} :
    path.fileName = some name ↔ ∃ directory, path = directory ++ [.normal name] := by
  unfold fileName
  constructor
  · intro h
    split at h
    next name' hlast =>
      obtain rfl := Option.some.inj h
      exact ⟨path.dropLast, (List.dropLast_append_getLast? _ hlast).symm⟩
    next => cases h
  · rintro ⟨directory, rfl⟩
    rw [List.getLast?_concat]

theorem parent_concat (directory : Path) (name : String) : parent (directory ++ [.normal name]) = some directory := by
  unfold parent
  rw [List.getLast?_concat, List.dropLast_concat]

end Path

theorem isDirectChild_iff {path parent : Path} :
    isDirectChild path parent = true ↔ ∃ component, path = parent ++ [component] := by
  unfold isDirectChild
  constructor
  · intro h
    split at h
    next relative hrelative =>
      obtain ⟨component, rfl⟩ := List.length_eq_one_iff.mp (of_decide_eq_true h)
      exact ⟨component, Path.stripPrefix_eq_some.mp hrelative⟩
    next => cases h
  · rintro ⟨component, rfl⟩
    rw [Path.stripPrefix_eq_some.mpr rfl]
    rfl

/-- The layer of a manifest's directory, below the root. -/
def directoryLayer (directory : Path) : Option Layer :=
  if directory = [] then some .root
  else if directory = names ["crates", "features", "domain-contracts"] then some .featureFoundation
  else if isDirectChild directory (names ["crates", "features"]) then some .featureAlgorithm
  else if isDirectChild directory (names ["crates", "adapters"]) then some .adapter
  else if directory = names ["crates", "engines", "inference-runtime"] then some .engineFoundation
  else if isDirectChild directory (names ["crates", "engines"]) then some .engineApplication
  else if isDirectChild directory (names ["crates", "apps"]) then some .application
  else none

theorem classifyManifest_append (root directory : Path) :
    classifyManifest root (root ++ (directory ++ [.normal "Cargo.toml"])) = directoryLayer directory := by
  have hname : Path.fileName (directory ++ [.normal "Cargo.toml"]) = some "Cargo.toml" :=
    Path.fileName_eq_some.mpr ⟨directory, rfl⟩
  unfold classifyManifest directoryLayer
  rw [Path.stripPrefix_eq_some.mpr rfl]
  by_cases hroot : directory = []
  · subst hroot
    rfl
  · have hne : directory ++ [.normal "Cargo.toml"] ≠ names ["Cargo.toml"] := fun h =>
      hroot (List.append_left_eq_self.mp h)
    simp only [Option.bind_eq_bind, Option.bind_some, if_neg hne, hname, ne_eq, not_true_eq_false, if_false,
      Path.parent_concat, if_neg hroot]

/-- A directory has one layer at most: the homes do not meet. -/
theorem directoryLayer_eq_some {directory : Path} {layer : Layer} :
    directoryLayer directory = some layer ↔ layer.Home directory := by
  unfold directoryLayer
  split_ifs with hroot hf0 hf1 ha he0 he1 happ
  · subst hroot
    cases layer <;> simp [Layer.Home, names]
  · subst hf0
    cases layer <;> simp [Layer.Home, names]
  · obtain ⟨component, rfl⟩ := isDirectChild_iff.mp hf1
    have hne : component ≠ .normal "domain-contracts" := fun h => hf0 (by rw [h]; rfl)
    cases layer <;> simp [Layer.Home, names, hne]
  · obtain ⟨component, rfl⟩ := isDirectChild_iff.mp ha
    cases layer <;> simp [Layer.Home, names]
  · subst he0
    cases layer <;> simp [Layer.Home, names]
  · obtain ⟨component, rfl⟩ := isDirectChild_iff.mp he1
    have hne : component ≠ .normal "inference-runtime" := fun h => he0 (by rw [h]; rfl)
    cases layer <;> simp [Layer.Home, names, hne]
  · obtain ⟨component, rfl⟩ := isDirectChild_iff.mp happ
    cases layer <;> simp [Layer.Home, names]
  · have hnot : ¬layer.Home directory := by
      intro hhome
      cases layer with
      | root => exact hroot hhome
      | featureFoundation => exact hf0 hhome
      | featureAlgorithm =>
        obtain ⟨component, -, rfl⟩ := hhome
        exact hf1 (isDirectChild_iff.mpr ⟨component, rfl⟩)
      | adapter => exact ha (isDirectChild_iff.mpr hhome)
      | engineFoundation => exact he0 hhome
      | engineApplication =>
        obtain ⟨component, -, rfl⟩ := hhome
        exact he1 (isDirectChild_iff.mpr ⟨component, rfl⟩)
      | application => exact happ (isDirectChild_iff.mpr hhome)
    simp [hnot]

/-- A manifest is classified by the home it lies in, and lies in one at most. -/
theorem classifyManifest_eq_some {root manifest : Path} {layer : Layer} :
    classifyManifest root manifest = some layer ↔
      ∃ directory, manifest = root ++ (directory ++ [.normal "Cargo.toml"]) ∧ layer.Home directory := by
  constructor
  · intro h
    have hshape : ∃ directory, manifest = root ++ (directory ++ [.normal "Cargo.toml"]) := by
      unfold classifyManifest at h
      obtain ⟨relative, hrelative, hlayer⟩ := Option.bind_eq_some_iff.mp h
      obtain rfl := Path.stripPrefix_eq_some.mp hrelative
      split_ifs at hlayer with hroot
      · exact ⟨[], by rw [hroot]; rfl⟩
      · obtain ⟨name, hname, hlayer⟩ := Option.bind_eq_some_iff.mp hlayer
        obtain ⟨directory, rfl⟩ := Path.fileName_eq_some.mp hname
        split_ifs at hlayer with hcargo
        · exact ⟨directory, by rw [not_not.mp hcargo]⟩
    obtain ⟨directory, rfl⟩ := hshape
    exact ⟨directory, rfl, directoryLayer_eq_some.mp (classifyManifest_append root directory ▸ h)⟩
  · rintro ⟨directory, rfl, hhome⟩
    rw [classifyManifest_append]
    exact directoryLayer_eq_some.mpr hhome

/-! ### Which layers see which -/

/-- How far up a layer stands. -/
def Layer.rank : Layer → ℕ
  | .featureFoundation => 0
  | .featureAlgorithm => 1
  | .adapter => 2
  | .engineFoundation => 3
  | .engineApplication => 4
  | .application => 5
  | .root => 6

/-- A layer sees the layers below it, the root apart, which neither sees nor is
seen. The application sees its engine only. -/
def Layer.Sees (source target : Layer) : Prop :=
  source ≠ .root ∧ target.rank < source.rank ∧ (source = .application → target = .engineApplication)

theorem allowsProduction_iff (source target : Layer) : allowsProduction source target = true ↔ source.Sees target := by
  cases source <;> cases target <;> simp [allowsProduction, Layer.Sees, Layer.rank]

/-! ### What is permitted -/

/-- The policy has an entry for the dependency. -/
def Reviewed (policy : List ReviewedDependency) (source target : String) (kind : DependencyKind) : Prop :=
  ∃ reviewed ∈ policy, reviewed.source = source ∧ reviewed.target = target ∧ reviewed.kind = kind

/-- Every entry of the policy says why. -/
def Justified (policy : List ReviewedDependency) : Prop := ∀ reviewed ∈ policy, reviewed.justification.isEmpty = false

theorem justified_external : Justified reviewedExternalDependencies := by
  unfold Justified reviewedExternalDependencies
  decide

theorem justified_local : Justified reviewedLocalDevDependencies := by
  unfold Justified reviewedLocalDevDependencies
  decide

theorem reviewedOrFailure_eq_none {policy : List ReviewedDependency} (hpolicy : Justified policy)
    {source target : String} {kind : DependencyKind} {failure : PolicyFailure} :
    reviewedOrFailure policy source target kind failure = none ↔ Reviewed policy source target kind := by
  unfold reviewedOrFailure reviewedDependency Reviewed
  cases hfind : policy.find? fun reviewed =>
      decide (reviewed.source = source ∧ reviewed.target = target ∧ reviewed.kind = kind) with
  | none =>
    have hnone := List.find?_eq_none.mp hfind
    simp only [decide_eq_true_eq] at hnone
    simp only [Option.filter_none, reduceCtorEq, false_iff]
    rintro ⟨reviewed, hmem, hreviewed⟩
    exact hnone reviewed hmem hreviewed
  | some reviewed =>
    have hmem := List.mem_of_find?_eq_some hfind
    have hreviewed : reviewed.source = source ∧ reviewed.target = target ∧ reviewed.kind = kind := by
      simpa using List.find?_some hfind
    simp only [Option.filter, hpolicy reviewed hmem, Bool.false_eq_true, not_false_eq_true, decide_true, if_true,
      true_iff]
    exact ⟨reviewed, hmem, hreviewed⟩

/-- Vendor code: adapters and applications may use any in production, everything
else is reviewed. -/
def ExternalPermitted (source : String) (layer : Layer) (target : String) (kind : DependencyKind) : Prop :=
  (kind ≠ .development ∧ (layer = .adapter ∨ layer = .application)) ∨
    Reviewed reviewedExternalDependencies source target kind

theorem externalPolicy_eq_none {source target : String} {layer : Layer} {kind : DependencyKind} :
    externalPolicy source layer target kind = none ↔ ExternalPermitted source layer target kind := by
  unfold externalPolicy ExternalPermitted reviewedExternalOrFailure
  split_ifs with hkind
  · rw [reviewedOrFailure_eq_none justified_external]
    simp [hkind]
  · cases layer <;> simp [hkind, reviewedOrFailure_eq_none justified_external]

namespace Metadata

variable (metadata : Metadata)

/-- The package at a directory. -/
def packageAt (directory : Path) : Option Package :=
  metadata.workspacePackages.reverse.find? fun package => package.manifestPath.parent = some directory

theorem packageAt_mem {metadata : Metadata} {directory : Path} {package : Package}
    (h : metadata.packageAt directory = some package) : package ∈ metadata.workspacePackages :=
  List.mem_reverse.mp (List.mem_of_find?_eq_some h)

theorem locationAt_packageLocations (directory : Path) :
    locationAt metadata.packageLocations directory =
      (metadata.packageAt directory).map fun package => (package.name, metadata.layerOf package) := by
  unfold locationAt packageLocations packageAt
  rw [← List.filterMap_reverse, List.find?_filterMap]
  have hpredicate : ∀ package : Package,
      ((package.manifestPath.parent.map fun directory => (directory, package.name, metadata.layerOf package)).any
        fun location => decide (location.1 = directory)) = decide (package.manifestPath.parent = some directory) := by
    intro package
    cases package.manifestPath.parent <;> simp
  simp only [hpredicate]
  cases hfind : metadata.workspacePackages.reverse.find? fun package =>
      decide (package.manifestPath.parent = some directory) with
  | none => rfl
  | some package =>
    have hparent : package.manifestPath.parent = some directory := by simpa using List.find?_some hfind
    simp [hparent]

/-- The manifest of the package lies in a home of the layer. -/
def LiesIn (package : Package) (layer : Layer) : Prop :=
  ∃ directory, package.manifestPath = metadata.workspaceRoot ++ (directory ++ [.normal "Cargo.toml"]) ∧
    layer.Home directory

theorem layerOf_eq_some {metadata : Metadata} {package : Package} {layer : Layer} :
    metadata.layerOf package = some layer ↔ metadata.LiesIn package layer := classifyManifest_eq_some

/-- A package lies in one layer at most. -/
theorem LiesIn.unique {metadata : Metadata} {package : Package} {layer layer' : Layer}
    (h : metadata.LiesIn package layer) (h' : metadata.LiesIn package layer') : layer = layer' :=
  Option.some.inj ((layerOf_eq_some.mpr h).symm.trans (layerOf_eq_some.mpr h'))

/-- A dependency that the architecture has a place for. -/
def Permits (package : Package) (layer : Layer) (dependency : Dependency) : Prop :=
  ∃ kind, dependencyKind dependency.kind = some kind ∧
    match dependency.path with
    | none => ExternalPermitted package.name layer dependency.name kind
    | some directory => ∃ target targetLayer, metadata.packageAt directory = some target ∧
        metadata.LiesIn target targetLayer ∧
          if kind = .development then Reviewed reviewedLocalDevDependencies package.name target.name kind
          else layer.Sees targetLayer

/-- Every package lies in a layer, and every dependency is permitted there. -/
structure Layered : Prop where
  located : ∀ package ∈ metadata.workspacePackages, ∃ layer, metadata.LiesIn package layer
  permitted : ∀ package ∈ metadata.workspacePackages, ∀ layer, metadata.LiesIn package layer →
    ∀ dependency ∈ package.dependencies, metadata.Permits package layer dependency

end Metadata

variable {metadata : Metadata}

theorem validateLocalDependency_eq_nil {package : Package} {layer : Layer} {kind : DependencyKind} {directory : Path} :
    validateLocalDependency package.name layer kind directory metadata.packageLocations = [] ↔
      ∃ target targetLayer, metadata.packageAt directory = some target ∧ metadata.LiesIn target targetLayer ∧
        if kind = .development then Reviewed reviewedLocalDevDependencies package.name target.name kind
        else layer.Sees targetLayer := by
  simp only [← Metadata.layerOf_eq_some]
  unfold validateLocalDependency
  rw [metadata.locationAt_packageLocations]
  cases metadata.packageAt directory with
  | none => simp
  | some target =>
    cases hlayer : metadata.layerOf target with
    | none => simp [hlayer]
    | some targetLayer =>
      cases kind with
      | normal => simp [hlayer, allowsProduction_iff]
      | build => simp [hlayer, allowsProduction_iff]
      | development => simp [hlayer, reviewedOrFailure_eq_none justified_local]

theorem validateDependency_eq_nil {package : Package} {layer : Layer} {dependency : Dependency} :
    validateDependency package.name layer dependency metadata.packageLocations = [] ↔
      metadata.Permits package layer dependency := by
  unfold validateDependency Metadata.Permits
  cases dependencyKind dependency.kind with
  | none => simp
  | some kind =>
    cases dependency.path with
    | some directory => simp [validateLocalDependency_eq_nil]
    | none => simp [externalPolicy_eq_none]

/-- The report is free of violations exactly when the workspace is layered. -/
theorem validateMetadata_isValid (metadata : Metadata) :
    (validateMetadata metadata).isValid = true ↔ metadata.Layered := by
  unfold validateMetadata ValidationReport.isValid
  rw [List.isEmpty_iff, List.flatMap_eq_nil_iff]
  have hpackage : ∀ package, validatePackage metadata.workspaceRoot package metadata.packageLocations = [] ↔
      ∃ layer, metadata.LiesIn package layer ∧
        ∀ dependency ∈ package.dependencies, metadata.Permits package layer dependency := by
    intro package
    simp only [← Metadata.layerOf_eq_some]
    unfold validatePackage Metadata.layerOf
    cases classifyManifest metadata.workspaceRoot package.manifestPath with
    | none => simp
    | some layer => simp [validateDependency_eq_nil]
  simp only [hpackage]
  constructor
  · intro h
    refine ⟨fun package hmem => (h package hmem).imp fun _ => And.left, fun package hmem layer hlayer => ?_⟩
    obtain ⟨layer', hlayer', hpermits⟩ := h package hmem
    obtain rfl := hlayer.unique hlayer'
    exact hpermits
  · intro h package hmem
    obtain ⟨layer, hlayer⟩ := h.located package hmem
    exact ⟨layer, hlayer, h.permitted package hmem layer hlayer⟩

/-! ### Chains of production dependencies -/

/-- A normal or build dependency of one package of the workspace on another. -/
def Metadata.Production (metadata : Metadata) (source target : Package) : Prop :=
  source ∈ metadata.workspacePackages ∧ ∃ dependency ∈ source.dependencies,
    (dependency.kind = .normal ∨ dependency.kind = .build) ∧
      ∃ directory, dependency.path = some directory ∧ metadata.packageAt directory = some target

namespace Metadata.Layered

variable {source target : Package}

theorem sees (h : metadata.Layered) (hedge : metadata.Production source target) :
    ∃ layer targetLayer, metadata.LiesIn source layer ∧ metadata.LiesIn target targetLayer ∧
      layer.Sees targetLayer := by
  obtain ⟨hsource, dependency, hdependency, hkind, directory, hpath, hat⟩ := hedge
  obtain ⟨layer, hlayer⟩ := h.located source hsource
  obtain ⟨kind, hknown, hpermits⟩ := h.permitted source hsource layer hlayer dependency hdependency
  rw [hpath] at hpermits
  obtain ⟨target', targetLayer, hat', htarget, hsees⟩ := hpermits
  obtain rfl := Option.some.inj (hat.symm.trans hat')
  have hproduction : kind ≠ .development := by
    rintro rfl
    rcases hkind with hkind | hkind <;> rw [hkind] at hknown <;> cases hknown
  rw [if_neg hproduction] at hsees
  exact ⟨layer, targetLayer, hlayer, htarget, hsees⟩

/-- The layers at the two ends of a chain. -/
def Descends (metadata : Metadata) (source target : Package) : Prop :=
  ∃ layer targetLayer, metadata.LiesIn source layer ∧ metadata.LiesIn target targetLayer ∧
    layer ≠ .root ∧ targetLayer.rank < layer.rank

theorem descends (h : metadata.Layered) (hchain : TransGen metadata.Production source target) :
    Descends metadata source target := by
  induction hchain with
  | single hedge =>
    obtain ⟨layer, targetLayer, hlayer, htarget, hsees⟩ := h.sees hedge
    exact ⟨layer, targetLayer, hlayer, htarget, hsees.1, hsees.2.1⟩
  | tail _ hedge ih =>
    obtain ⟨layer, middle, hlayer, hmiddle, hroot, hlt⟩ := ih
    obtain ⟨middle', targetLayer, hmiddle', htarget, hsees⟩ := h.sees hedge
    obtain rfl := hmiddle.unique hmiddle'
    exact ⟨layer, targetLayer, hlayer, htarget, hroot, hsees.2.1.trans hlt⟩

theorem acyclic (h : metadata.Layered) : Acyclic metadata.Production := by
  intro package hcycle
  obtain ⟨layer, layer', hlayer, hlayer', -, hlt⟩ := h.descends hcycle
  obtain rfl := hlayer.unique hlayer'
  exact absurd hlt (lt_irrefl _)

/-- The first package of a chain from an application is the application engine. -/
theorem through_engine (h : metadata.Layered) (happlication : metadata.LiesIn source .application)
    (hchain : TransGen metadata.Production source target) :
    ∃ engine, metadata.Production source engine ∧ metadata.LiesIn engine .engineApplication ∧
      ReflTransGen metadata.Production engine target := by
  obtain ⟨engine, hedge, hrest⟩ := TransGen.head'_iff.mp hchain
  obtain ⟨layer, engineLayer, hlayer, hengine, hsees⟩ := h.sees hedge
  obtain rfl := happlication.unique hlayer
  rw [hsees.2.2 rfl] at hengine
  exact ⟨engine, hedge, hengine, hrest⟩

/-- The vendor code of what a portable package reaches is on the reviewed list. -/
theorem portable (h : metadata.Layered) {layer : Layer} (hlayer : metadata.LiesIn source layer)
    (hportable : layer = .featureFoundation ∨ layer = .featureAlgorithm) (hsource : source ∈ metadata.workspacePackages)
    (hchain : ReflTransGen metadata.Production source target) {dependency : Dependency}
    (hdependency : dependency ∈ target.dependencies) (hexternal : dependency.path = none) :
    ∃ kind, dependencyKind dependency.kind = some kind ∧
      Reviewed reviewedExternalDependencies target.name dependency.name kind := by
  have htarget : target ∈ metadata.workspacePackages ∧
      ∃ targetLayer, metadata.LiesIn target targetLayer ∧ targetLayer ≠ .adapter ∧ targetLayer ≠ .application := by
    rcases ReflTransGen.cases_tail hchain with rfl | ⟨middle, hfirst, hlast⟩
    · exact ⟨hsource, layer, hlayer, by rcases hportable with rfl | rfl <;> decide⟩
    · obtain ⟨-, _, -, -, _, -, hat⟩ := id hlast
      refine ⟨packageAt_mem hat, ?_⟩
      obtain ⟨layer', targetLayer, hlayer', htarget, -, hlt⟩ := h.descends (TransGen.tail' hfirst hlast)
      obtain rfl := hlayer.unique hlayer'
      refine ⟨targetLayer, htarget, ?_⟩
      rcases hportable with rfl | rfl <;> cases targetLayer <;> simp [Layer.rank] at hlt ⊢
  obtain ⟨hmem, targetLayer, hlayer', hadapter, happlication⟩ := htarget
  obtain ⟨kind, hknown, hpermits⟩ := h.permitted target hmem targetLayer hlayer' dependency hdependency
  rw [hexternal] at hpermits
  refine ⟨kind, hknown, ?_⟩
  rcases hpermits with ⟨-, hlayer' | hlayer'⟩ | hreviewed
  · exact absurd hlayer' hadapter
  · exact absurd hlayer' happlication
  · exact hreviewed

end Metadata.Layered

/-- In a workspace without violations the production dependencies have no cycle,
every chain of them goes down, one from an application goes through the
application engine, and the vendor code of all that a feature reaches is on the
reviewed list. -/
theorem production_chains (metadata : Metadata) (h : (validateMetadata metadata).isValid = true) :
    Acyclic metadata.Production ∧
      (∀ source target, TransGen metadata.Production source target →
        Metadata.Layered.Descends metadata source target ∧
          (metadata.LiesIn source .application →
            ∃ engine, metadata.Production source engine ∧ metadata.LiesIn engine .engineApplication ∧
              ReflTransGen metadata.Production engine target)) ∧
      ∀ source ∈ metadata.workspacePackages, ∀ layer, metadata.LiesIn source layer →
        layer = .featureFoundation ∨ layer = .featureAlgorithm →
          ∀ target, ReflTransGen metadata.Production source target → ∀ dependency ∈ target.dependencies,
            dependency.path = none → ∃ kind, dependencyKind dependency.kind = some kind ∧
              Reviewed reviewedExternalDependencies target.name dependency.name kind := by
  have hlayered := (validateMetadata_isValid metadata).mp h
  refine ⟨hlayered.acyclic, fun source target hchain => ⟨hlayered.descends hchain, fun happlication => ?_⟩, ?_⟩
  · exact hlayered.through_engine happlication hchain
  · intro source hsource layer hlayer hportable target hchain dependency hdependency hexternal
    exact hlayered.portable hlayer hportable hsource hchain hdependency hexternal

/-! ### This workspace -/

/-- A package in its directory below the root. -/
def member (directory : List String) (name : String) (dependencies : List Dependency) : Package :=
  ⟨name, .rootDir :: names ("workspace" :: directory ++ ["Cargo.toml"]), dependencies⟩

def external (name : String) : Dependency := ⟨name, .normal, none⟩

def inWorkspace (directory name : String) : Dependency :=
  ⟨name, .normal, some (.rootDir :: names ["workspace", "crates", directory, name])⟩

def domainContracts : Package :=
  member ["crates", "features", "domain-contracts"] "domain-contracts" [⟨"stats_alloc", .development, none⟩]

def sampling : Package :=
  member ["crates", "features", "sampling"] "sampling" [inWorkspace "features" "domain-contracts", external "libm",
    ⟨"criterion", .development, none⟩, ⟨"stats_alloc", .development, none⟩]

def inferenceRuntime : Package :=
  member ["crates", "engines", "inference-runtime"] "inference-runtime" [inWorkspace "features" "domain-contracts",
    inWorkspace "adapters" "host-runtime", inWorkspace "features" "sampling"]

def applicationRuntime : Package :=
  member ["crates", "engines", "application-runtime"] "application-runtime" [inWorkspace "features" "domain-contracts",
    inWorkspace "adapters" "host-runtime", inWorkspace "engines" "inference-runtime"]

def desktopSlint : Package :=
  member ["crates", "apps", "desktop-slint"] "desktop-slint" [inWorkspace "engines" "application-runtime",
    external "slint", ⟨"slint-build", .build, none⟩]

/-- A part of this workspace: the desktop application, down to the contracts. -/
def workspace : Metadata where
  workspaceRoot := .rootDir :: names ["workspace"]
  workspacePackages := [
    member [] "llm-app" [external "cargo_metadata"],
    domainContracts,
    sampling,
    member ["crates", "adapters", "host-runtime"] "host-runtime" [inWorkspace "features" "domain-contracts",
      external "flume"],
    inferenceRuntime,
    applicationRuntime,
    desktopSlint]

theorem workspace_production {source target : Package} (directory name : String)
    (hsource : source ∈ workspace.workspacePackages) (hdependency : inWorkspace directory name ∈ source.dependencies)
    (htarget : workspace.packageAt (.rootDir :: names ["workspace", "crates", directory, name]) = some target) :
    workspace.Production source target :=
  ⟨hsource, inWorkspace directory name, hdependency, Or.inl rfl, _, rfl, htarget⟩

/-- The chain from the desktop application to the sampling, and the vendor code of
the sampling. -/
theorem production_chains_workspace :
    (validateMetadata workspace).isValid = true ∧ Acyclic workspace.Production ∧
      Metadata.Layered.Descends workspace desktopSlint sampling ∧
      (∃ engine, workspace.Production desktopSlint engine ∧ workspace.LiesIn engine .engineApplication ∧
        ReflTransGen workspace.Production engine sampling) ∧
      ∃ kind, dependencyKind (external "libm").kind = some kind ∧
        Reviewed reviewedExternalDependencies sampling.name (external "libm").name kind := by
  have hvalid : (validateMetadata workspace).isValid = true := by decide +kernel
  obtain ⟨hacyclic, hchains, hportable⟩ := production_chains workspace hvalid
  have hdesktop : workspace.Production desktopSlint applicationRuntime :=
    workspace_production "engines" "application-runtime" (by simp [workspace])
      (by simp [desktopSlint, member]) (by decide +kernel)
  have happlication : workspace.Production applicationRuntime inferenceRuntime :=
    workspace_production "engines" "inference-runtime" (by simp [workspace])
      (by simp [applicationRuntime, member]) (by decide +kernel)
  have hinference : workspace.Production inferenceRuntime sampling :=
    workspace_production "features" "sampling" (by simp [workspace])
      (by simp [inferenceRuntime, member]) (by decide +kernel)
  have hchain : TransGen workspace.Production desktopSlint sampling :=
    ((TransGen.single hdesktop).tail happlication).tail hinference
  have hlies : workspace.LiesIn desktopSlint .application := Metadata.layerOf_eq_some.mp (by decide +kernel)
  have hfeature : workspace.LiesIn sampling .featureAlgorithm := Metadata.layerOf_eq_some.mp (by decide +kernel)
  obtain ⟨hdescends, hengine⟩ := hchains _ _ hchain
  exact ⟨hvalid, hacyclic, hdescends, hengine hlies, hportable sampling (by simp [workspace]) _ hfeature (Or.inr rfl)
    sampling .refl (external "libm") (by simp [sampling, member]) rfl⟩

end LlmApp.Architecture
