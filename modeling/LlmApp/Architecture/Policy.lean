/-
# The architecture of the workspace

What the workspace runner checks of the packages that Cargo reports: where each
lies decides its layer (`classifyManifest`), and each dependency that one
declares is allowed or a violation (`validateMetadata`). The packages, their
manifests and their dependencies are what Cargo's metadata gives; how Cargo is
called for it is not covered.

Key definitions: `Layer`, `classifyManifest`, `allowsProduction`,
`externalPolicy`, `validateDependency`, `validateMetadata`.
-/
import Mathlib

namespace LlmApp.Architecture

/-! ### Paths -/

/-- A component of a path. -/
inductive Component where
  | rootDir
  | curDir
  | parentDir
  | normal (name : String)
deriving DecidableEq, Repr

abbrev Path := List Component

namespace Path

def stripPrefix (path base : Path) : Option Path := if base <+: path then some (path.drop base.length) else none

/-- The last component, if it is a name. -/
def fileName (path : Path) : Option String :=
  match path.getLast? with
  | some (.normal name) => some name
  | _ => none

def parent (path : Path) : Option Path :=
  match path.getLast? with
  | none => none
  | some .rootDir => none
  | some _ => some path.dropLast

def display (path : Path) : String :=
  let text : Component → String
    | .rootDir => ""
    | .curDir => "."
    | .parentDir => ".."
    | .normal name => name
  if path = [.rootDir] then "/" else "/".intercalate (path.map text)

end Path

/-- A path of names below another. -/
def names (segments : List String) : Path := segments.map .normal

/-! ### Layers -/

/-- A layer of the production architecture. -/
inductive Layer where
  | root
  | featureFoundation
  | featureAlgorithm
  | adapter
  | engineFoundation
  | engineApplication
  | application
deriving DecidableEq, Repr

/-- The section of a manifest that declares a dependency. -/
inductive DependencyKind where
  | normal
  | build
  | development
deriving DecidableEq, Repr

def isDirectChild (path parent : Path) : Bool :=
  match path.stripPrefix parent with
  | some relative => relative.length = 1
  | none => false

def classifyManifest (root manifest : Path) : Option Layer := do
  let relative ← manifest.stripPrefix root
  if relative = names ["Cargo.toml"] then some .root
  else
    let fileName ← relative.fileName
    if fileName ≠ "Cargo.toml" then none
    else
      let packageDirectory ← relative.parent
      if packageDirectory = names ["crates", "features", "domain-contracts"] then some .featureFoundation
      else if isDirectChild packageDirectory (names ["crates", "features"]) then some .featureAlgorithm
      else if isDirectChild packageDirectory (names ["crates", "adapters"]) then some .adapter
      else if packageDirectory = names ["crates", "engines", "inference-runtime"] then some .engineFoundation
      else if isDirectChild packageDirectory (names ["crates", "engines"]) then some .engineApplication
      else if isDirectChild packageDirectory (names ["crates", "apps"]) then some .application
      else none

def allowsProduction (source target : Layer) : Bool :=
  match source with
  | .root | .featureFoundation => false
  | .featureAlgorithm => target = .featureFoundation
  | .adapter => target = .featureFoundation ∨ target = .featureAlgorithm
  | .engineFoundation => target = .featureFoundation ∨ target = .featureAlgorithm ∨ target = .adapter
  | .engineApplication =>
    target = .featureFoundation ∨ target = .featureAlgorithm ∨ target = .adapter ∨ target = .engineFoundation
  | .application => target = .engineApplication

/-! ### What Cargo reports -/

/-- A kind that Cargo reports; a kind that is not known yet is `unknown`. -/
inductive CargoDependencyKind where
  | normal
  | build
  | development
  | unknown
deriving DecidableEq, Repr

def CargoDependencyKind.debug : CargoDependencyKind → String
  | .normal => "Normal"
  | .build => "Build"
  | .development => "Development"
  | .unknown => "Unknown"

def dependencyKind : CargoDependencyKind → Option DependencyKind
  | .normal => some .normal
  | .build => some .build
  | .development => some .development
  | .unknown => none

structure Dependency where
  name : String
  kind : CargoDependencyKind
  path : Option Path
deriving DecidableEq, Repr

structure Package where
  name : String
  manifestPath : Path
  dependencies : List Dependency
deriving DecidableEq, Repr

structure Metadata where
  workspaceRoot : Path
  workspacePackages : List Package
deriving DecidableEq, Repr

/-! ### Violations -/

structure Violation where
  source : String
  target : String
  dependencyKind : Option DependencyKind
  sourceLayer : Option Layer
  targetLayer : Option Layer
  rule : String
  reason : String
deriving DecidableEq, Repr

structure ValidationReport where
  violations : List Violation
deriving DecidableEq, Repr

def ValidationReport.isValid (report : ValidationReport) : Bool := report.violations.isEmpty

structure PolicyFailure where
  rule : String
  reason : String
deriving DecidableEq, Repr

structure ReviewedDependency where
  source : String
  target : String
  kind : DependencyKind
  justification : String
deriving DecidableEq, Repr

def reviewedExternalDependencies : List ReviewedDependency := [
  ⟨"llm-app", "cargo_metadata", .normal,
    "the maintenance runner requires Cargo's typed workspace metadata API"⟩,
  ⟨"sampling", "libm", .normal, "sampling requires reviewed portable floating-point math"⟩,
  ⟨"domain-contracts", "stats_alloc", .development, "allocation contract tests measure project-owned hot paths"⟩,
  ⟨"sampling", "stats_alloc", .development,
    "sampling allocation tests measure the declared zero-allocation region"⟩,
  ⟨"sampling", "criterion", .development, "Criterion compiles and runs the reviewed sampling benchmark"⟩]

def reviewedLocalDevDependencies : List ReviewedDependency := [
  ⟨"inference-runtime", "candle-backend", .development,
    "E0 compatibility tests exercise the Candle backend contract"⟩,
  ⟨"inference-runtime", "gguf-backend", .development,
    "E0 compatibility tests exercise the GGUF backend contract"⟩]

/-- The first entry for the dependency, if it says why. -/
def reviewedDependency (policy : List ReviewedDependency) (sourceName targetName : String) (kind : DependencyKind) :
    Option ReviewedDependency :=
  (policy.find? fun reviewed =>
    reviewed.source = sourceName ∧ reviewed.target = targetName ∧ reviewed.kind = kind).filter
      fun reviewed => ¬reviewed.justification.isEmpty

/-- A failure unless the dependency is one of `policy`. -/
def reviewedOrFailure (policy : List ReviewedDependency) (sourceName targetName : String) (kind : DependencyKind)
    (failure : PolicyFailure) : Option PolicyFailure :=
  match reviewedDependency policy sourceName targetName kind with
  | none => some failure
  | some _ => none

def reviewedExternalOrFailure (sourceName targetName : String) (kind : DependencyKind) (rule reason : String) :
    Option PolicyFailure :=
  reviewedOrFailure reviewedExternalDependencies sourceName targetName kind ⟨rule, reason⟩

def externalPolicy (sourceName : String) (sourceLayer : Layer) (targetName : String) (kind : DependencyKind) :
    Option PolicyFailure :=
  if kind = .development then
    reviewedExternalOrFailure sourceName targetName kind "EXT-DEV-1"
      "external development dependencies are allowed only after a separate, exact test or benchmark review"
  else
    match sourceLayer with
    | .root => reviewedExternalOrFailure sourceName targetName kind "EXT-ROOT-PROD-1"
        "root runner production dependencies must be explicitly reviewed tooling dependencies"
    | .featureFoundation => reviewedExternalOrFailure sourceName targetName kind "EXT-F0-PROD-1"
        "F0 has no production external dependencies; infrastructure and vendor crates are forbidden without an explicit exception"
    | .featureAlgorithm => reviewedExternalOrFailure sourceName targetName kind "EXT-F1-PROD-1"
        "F1 production external dependencies are limited to reviewed portable dependencies (currently sampling -> libm)"
    | .engineFoundation | .engineApplication =>
      reviewedExternalOrFailure sourceName targetName kind "EXT-ENGINE-PROD-1"
        "engine external production dependencies require an exact justification and explicit orchestration review; frontend toolkits are prohibited"
    | .adapter | .application => none

/-! ### Validation -/

namespace Metadata

variable (metadata : Metadata)

def layerOf (package : Package) : Option Layer := classifyManifest metadata.workspaceRoot package.manifestPath

/-- Each package's name and layer, by its directory. -/
def packageLocations : List (Path × String × Option Layer) :=
  metadata.workspacePackages.filterMap fun package =>
    package.manifestPath.parent.map fun directory => (directory, package.name, metadata.layerOf package)

end Metadata

/-- What is at a directory: a later entry replaces an earlier one. -/
def locationAt (packageLocations : List (Path × String × Option Layer)) (directory : Path) :
    Option (String × Option Layer) :=
  (packageLocations.reverse.find? fun location => location.1 = directory).map Prod.snd

def unknownPackageLocation (package : Package) (root : Path) : Violation where
  source := package.name
  target := ((package.manifestPath.stripPrefix root).getD package.manifestPath).display
  dependencyKind := none
  sourceLayer := none
  targetLayer := none
  rule := "LAYOUT-1"
  reason := "workspace packages must be the root runner or a direct crate under crates/features, crates/adapters, crates/engines, or crates/apps; unknown locations are never assigned a fallback layer"

def edgeViolation (source : String) (sourceLayer : Option Layer) (target : String) (targetLayer : Option Layer)
    (kind : DependencyKind) (failure : PolicyFailure) : Violation :=
  ⟨source, target, some kind, sourceLayer, targetLayer, failure.rule, failure.reason⟩

def validateLocalDependency (sourceName : String) (sourceLayer : Layer) (kind : DependencyKind)
    (dependencyPath : Path) (packageLocations : List (Path × String × Option Layer)) : List Violation :=
  match locationAt packageLocations dependencyPath with
  | none => [⟨sourceName, dependencyPath.display, some kind, some sourceLayer, none, "LAYOUT-2",
      "path dependencies must resolve to a recognized member of this workspace; outside, excluded, and otherwise unknown local paths fail closed"⟩]
  | some (targetName, none) => [⟨sourceName, targetName, some kind, some sourceLayer, none, "LAYOUT-2",
      "the path dependency resolves to a workspace package whose location has no recognized architecture layer"⟩]
  | some (targetName, some targetLayer) =>
    let failure : Option PolicyFailure :=
      match kind with
      | .normal | .build =>
        if allowsProduction sourceLayer targetLayer then none
        else some ⟨"LAYER-PROD-1",
          "normal and build dependencies must follow the declared 7-layer production direction matrix"⟩
      | .development => reviewedOrFailure reviewedLocalDevDependencies sourceName targetName kind ⟨"DEV-LOCAL-1",
          "workspace-local development dependencies require an explicit compatibility-test justification, even when the production matrix would allow the edge"⟩
    (failure.map (edgeViolation sourceName (some sourceLayer) targetName (some targetLayer) kind)).toList

def validateDependency (sourceName : String) (sourceLayer : Layer) (dependency : Dependency)
    (packageLocations : List (Path × String × Option Layer)) : List Violation :=
  match dependencyKind dependency.kind with
  | none => [⟨sourceName, dependency.name, none, some sourceLayer, none, "DEPENDENCY-KIND-1",
      "Cargo reported an unsupported dependency kind " ++ dependency.kind.debug ++ "; unknown kinds fail closed"⟩]
  | some kind =>
    match dependency.path with
    | some path => validateLocalDependency sourceName sourceLayer kind path packageLocations
    | none =>
      ((externalPolicy sourceName sourceLayer dependency.name kind).map
        (edgeViolation sourceName (some sourceLayer) dependency.name none kind)).toList

def validatePackage (root : Path) (package : Package) (packageLocations : List (Path × String × Option Layer)) :
    List Violation :=
  match classifyManifest root package.manifestPath with
  | none => [unknownPackageLocation package root]
  | some sourceLayer => package.dependencies.flatMap fun dependency =>
      validateDependency package.name sourceLayer dependency packageLocations

/-- The violations of each package, in the order of the packages. -/
def validateMetadata (metadata : Metadata) : ValidationReport :=
  ⟨metadata.workspacePackages.flatMap fun package =>
    validatePackage metadata.workspaceRoot package metadata.packageLocations⟩

end LlmApp.Architecture
