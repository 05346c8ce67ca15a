import Packmon.Domain.Packages
import Packmon.Library.GoMap
import Packmon.Library.Worklist

/-!
# package-lock.json

`NPMParser.Parse` on a decoded lockfile.  The packages map is ranged over four times, each time in an
order of its own (`PackageOrders`); the dependencies of the root are ranged over once more where two
names can lead to one package (`RootOrder`).

Every loop over the packages map either sets what belongs to the key it meets, collects a set that is
sorted before it is read, or appends packages that `dedup` merges; so the parsed packages are the same,
as a multiset, for all orders of the packages map (`npmParse_perm`).
-/

namespace Packmon.Parser

open Domain GoText

/-! ### The lockfile -/

/-- An entry of the packages map.  Of the dependency maps only the names are read. -/
structure PackageLockPkg where
  version : String := ""
  resolved : String := ""
  dev : Bool := false
  optional : Bool := false
  peer : Bool := false
  dependencies : List String := []
  devDependencies : List String := []
  optionalDependencies : List String := []
  peerDependencies : List String := []
  deriving DecidableEq, Repr

/-- An entry of the flat map of the first lockfile version. -/
structure PackageLockDep where
  version : String := ""
  resolved : String := ""
  dev : Bool := false
  deriving DecidableEq, Repr

structure PackageLock where
  packages : GoMap String PackageLockPkg
  dependencies : GoMap String PackageLockDep

/-- The name behind the last `node_modules/` of a key; empty where there is none. -/
def npmNameFromKey (key : String) : String :=
  match lastIndex "node_modules/".toList key.toList with
  | none => ""
  | some idx => String.ofList (key.toList.drop (idx + "node_modules/".toList.length))

def isBlank (name : String) : Bool := trimSpace name = ""

def sortStrings (values : List String) : List String := Keyset.orderBy id values

/-- The names a package depends on, development dependencies apart. -/
def npmDependencyNames (entry : PackageLockPkg) : List String :=
  SortedSets.sortedSet id
    ((entry.dependencies ++ entry.optionalDependencies ++ entry.peerDependencies).filter (!isBlank ·))

/-! ### Resolving names to keys -/

/-- What `newNPMPackageResolver` keeps: the map, and the keys of every name in order. -/
structure NpmPackageResolver where
  packages : GoMap String PackageLockPkg
  keysByName : String → List String

def newNPMPackageResolver (packages : GoMap String PackageLockPkg) (order : packages.Order) :
    NpmPackageResolver where
  packages := packages
  keysByName name := sortStrings <| (order.list.map Prod.fst).filter fun key =>
    key ≠ "" && npmNameFromKey key ≠ "" && npmNameFromKey key = name

namespace NpmPackageResolver

variable (r : NpmPackageResolver)

/-- The directories a package can see modules from: its own, and those left when the last
`/node_modules/` and what follows is cut off, again and again. -/
def enclosing (base : List Char) : List (List Char) :=
  match _found : lastIndex "/node_modules/".toList base with
  | none => [base]
  | some idx => base :: enclosing (base.take idx)
termination_by base.length
decreasing_by
  have hle := lastIndex_add_length_le _found
  simp only [List.length_take, String.reduceToList, List.length_cons, List.length_nil] at hle ⊢
  omega

/-- The key a dependency resolves to: in the nearest enclosing directory, else at the root, else the
first key of the name.  The empty key stands for the root package. -/
def dependencyKey (parentKey name : String) : Option String :=
  if isBlank name then none
  else
    let nested := if parentKey = "" then [] else
      (enclosing parentKey.toList).map fun base => String.ofList base ++ "/node_modules/" ++ name
    match (nested ++ ["node_modules/" ++ name]).find? fun key => (r.packages.get? key).isSome with
    | some key => some key
    | none => (r.keysByName name).head?

def rootPackageKey (name : String) : Option String := r.dependencyKey "" name

def dependencyNames (packageKey : String) : List String :=
  npmDependencyNames ((r.packages.get? packageKey).getD {})

def resolvedDependencyKeys (packageKey : String) : List String :=
  sortStrings ((r.dependencyNames packageKey).filterMap (r.dependencyKey packageKey))

end NpmPackageResolver

/-! ### The dependencies of the root -/

structure NpmRootDependency where
  dev : Bool := false
  optional : Bool := false
  peer : Bool := false
  deriving DecidableEq, Repr

/-- A name in several sections has the flags of all of them. -/
def NpmRootDependency.or (info scope : NpmRootDependency) : NpmRootDependency :=
  ⟨info.dev || scope.dev, info.optional || scope.optional, info.peer || scope.peer⟩

/-- The names the root lists, each with the flags of the sections it is in. -/
def npmRootDependencies (root : PackageLockPkg) : List (String × NpmRootDependency) :=
  let listed (names : List String) (scope : NpmRootDependency) : List (String × NpmRootDependency) :=
    (names.filter (!isBlank ·)).map fun name => (name, scope)
  KeyedMerge.collect Prod.fst (fun old new => (old.1, old.2.or new.2))
    (listed root.dependencies {} ++ listed root.devDependencies { dev := true } ++
      listed root.optionalDependencies { optional := true } ++
      listed root.peerDependencies { peer := true })

def PackageLock.directDeps (lock : PackageLock) : List (String × NpmRootDependency) :=
  npmRootDependencies ((lock.packages.get? "").getD {})

/-- An order in which the dependencies of the root are met. -/
structure RootOrder (lock : PackageLock) where
  list : List (String × NpmRootDependency)
  perm : list.Perm lock.directDeps

/-! ### Metadata of the keys -/

structure NpmPackageMeta where
  direct : Bool := false
  indirect : Bool := false
  dev : Bool := false
  optional : Bool := false
  peer : Bool := false
  via : List String := []
  parents : List PackageParent := []
  deriving DecidableEq, Repr

/-- The flags of the name that resolves to a key; of two such names the one met last counts. -/
def directByKey (r : NpmPackageResolver) (directDeps : List (String × NpmRootDependency)) :
    String → Option NpmRootDependency :=
  directDeps.foldl (fun byKey dep =>
    (r.rootPackageKey dep.1).elim byKey fun key => Function.update byKey key (some dep.2)) fun _ => none

/-- What one entry says about its own key. -/
def directMeta (direct : Option NpmRootDependency) (entry : PackageLockPkg) : NpmPackageMeta where
  direct := direct.isSome
  indirect := !direct.isSome
  dev := (direct.getD {}).dev
  optional := entry.optional || (direct.getD {}).optional
  peer := entry.peer || (direct.getD {}).peer

def npmDirectDependencyMetadata {packages : GoMap String PackageLockPkg} (order : packages.Order)
    (r : NpmPackageResolver) (directDeps : List (String × NpmRootDependency)) : String → NpmPackageMeta :=
  order.list.foldl (fun metadata entry =>
    (if entry.1 = "" || npmNameFromKey entry.1 = "" then none
      else some (directMeta (directByKey r directDeps entry.1) entry.2)).elim metadata
      (Function.update metadata entry.1)) fun _ => {}

/-! ### Names of roots along the edges -/

/-- The state of the loop that hands the names of the root dependencies on.  The keys in the queue are
those of the `queued` map. -/
structure ViaState where
  viaRoots : String → List String
  propagatedRoots : String → List String
  queue : List String

namespace ViaState

def enqueue (queue : List String) (key : String) : List String :=
  if key ∈ queue then queue else queue ++ [key]

/-- Adds names to a key, which is queued if one of them is new. -/
def offer (s : ViaState) (key : String) (names : List String) : ViaState :=
  let added := Worklist.addAll (fun _ _ _ => true) s.viaRoots key names
  { s with viaRoots := added.1, queue := if added.2 then enqueue s.queue key else s.queue }

/-- The state before the loop: every resolved root key has its own names. -/
def initial (r : NpmPackageResolver) (rootNames : List String) : ViaState :=
  rootNames.foldl (fun s rootName =>
    match r.rootPackageKey rootName with
    | none => s
    | some rootKey => s.offer rootKey [rootName]) ⟨fun _ => [], fun _ => [], []⟩

end ViaState

def npmPendingViaRoots (roots propagated : List String) : List String :=
  sortStrings (roots.filter (· ∉ propagated))

/-- One round of the loop: the names that are new at the first key of the queue go to its
dependencies. -/
def viaRound (r : NpmPackageResolver) (s : ViaState) : Option ViaState :=
  match s.queue with
  | [] => none
  | key :: queue =>
    let pending := npmPendingViaRoots (s.viaRoots key) (s.propagatedRoots key)
    if pending = [] then some { s with queue := queue }
    else
      let popped : ViaState :=
        { s with
          queue := queue
          propagatedRoots := Function.update s.propagatedRoots key (s.propagatedRoots key ++ pending) }
      some <| (r.resolvedDependencyKeys key).foldl (fun s depKey =>
        if depKey = key then s else s.offer depKey pending) popped

/-- The state behind the loop, which is run for as many rounds as there are pairs of a package and a name
of a root dependency. -/
def viaLoop (r : NpmPackageResolver) (rootNames : List String) : ViaState :=
  Worklist.run (viaRound r) (r.packages.entries.length * rootNames.length)
    (ViaState.initial r rootNames)

def npmSortedStringSet (values : List String) : List String := sortStrings (values.filter (!isBlank ·))

def npmPropagateViaRoots (metadata : String → NpmPackageMeta) (r : NpmPackageResolver)
    (directDeps : List (String × NpmRootDependency)) : String → NpmPackageMeta := fun key =>
  let roots := (viaLoop r (sortStrings (directDeps.map Prod.fst))).viaRoots key
  if roots = [] || (metadata key).direct then metadata key
  else { metadata key with via := npmSortedStringSet roots }

/-! ### Parents -/

/-- The edges a package is the parent of: its dependencies and itself as their parent. -/
def parentEdges (r : NpmPackageResolver) (parentKey : String) (parentEntry : PackageLockPkg) :
    List (String × PackageParent) :=
  if parentKey = "" || npmNameFromKey parentKey = "" || parentEntry.version = "" then []
  else
    ((r.dependencyNames parentKey).filterMap (r.dependencyKey parentKey)).filterMap fun depKey =>
      if depKey = parentKey then none
      else some (depKey, ⟨npmNameFromKey parentKey, parentEntry.version, .npm⟩)

def npmCollectParentEdges (metadata : String → NpmPackageMeta) {packages : GoMap String PackageLockPkg}
    (order : packages.Order) (r : NpmPackageResolver) : String → NpmPackageMeta :=
  (order.list.flatMap fun entry => parentEdges r entry.1 entry.2).foldl (fun metadata edge =>
    Function.update metadata edge.1
      { metadata edge.1 with parents := mergePackageParents (metadata edge.1).parents [edge.2] }) metadata

/-! ### Parsing -/

/-- The orders in which one run of the parser meets the packages map. -/
structure PackageOrders (lock : PackageLock) where
  resolver : lock.packages.Order
  metadata : lock.packages.Order
  parents : lock.packages.Order
  result : lock.packages.Order

def npmPackageMetadata (lock : PackageLock) (root : RootOrder lock) (orders : PackageOrders lock) :
    String → NpmPackageMeta :=
  let r := newNPMPackageResolver lock.packages orders.resolver
  npmCollectParentEdges
    (npmPropagateViaRoots (npmDirectDependencyMetadata orders.metadata r root.list) r root.list)
    orders.parents r

def cleanSourceRefs (refs : List String) : List String := stringSet refs

/-- The package of one entry. -/
def npmPackage (metadata : String → NpmPackageMeta) (key : String) (entry : PackageLockPkg) :
    Option Package :=
  if key = "" || npmNameFromKey key = "" || entry.version = "" then none
  else some
    { name := npmNameFromKey key
      version := entry.version
      ecosystem := .npm
      dev := entry.dev || (metadata key).dev
      direct := (metadata key).direct
      indirect := (metadata key).indirect
      optional := entry.optional || (metadata key).optional
      peer := entry.peer || (metadata key).peer
      via := (metadata key).via
      parents := (metadata key).parents
      sourceRefs := cleanSourceRefs [entry.resolved] }

/-- The package of one entry of the first lockfile version. -/
def npmFlatPackage (name : String) (entry : PackageLockDep) : Option Package :=
  if name = "" || entry.version = "" then none
  else some
    { name := name
      version := entry.version
      ecosystem := .npm
      dev := entry.dev
      direct := true
      sourceRefs := cleanSourceRefs [entry.resolved] }

/-- `NPMParser.Parse` on a decoded lockfile. -/
def npmParse (lock : PackageLock) (root : RootOrder lock) (orders : PackageOrders lock)
    (flat : lock.dependencies.Order) : List Package :=
  if lock.packages.entries ≠ [] then
    dedup (orders.result.list.filterMap fun entry =>
      npmPackage (npmPackageMetadata lock root orders) entry.1 entry.2)
  else dedup (flat.list.filterMap fun entry => npmFlatPackage entry.1 entry.2)

/-! ### Orders of the packages map -/

section

variable {packages : GoMap String PackageLockPkg}

/-- The keys of a name are sorted, so the resolver does not depend on the order. -/
lemma newNPMPackageResolver_eq (order order' : packages.Order) :
    newNPMPackageResolver packages order = newNPMPackageResolver packages order' := by
  have hperm : order.list.Perm order'.list := order.perm.trans order'.perm.symm
  unfold newNPMPackageResolver
  congr 1
  funext name
  exact SortedSets.orderBy_perm Function.injective_id ((hperm.map Prod.fst).filter _)

variable {r : NpmPackageResolver}

lemma npmDirectDependencyMetadata_apply (order : packages.Order)
    (directDeps : List (String × NpmRootDependency)) (key : String) :
    npmDirectDependencyMetadata order r directDeps key =
      ((packages.get? key).bind fun entry =>
        if key = "" || npmNameFromKey key = "" then none
        else some (directMeta (directByKey r directDeps key) entry)).getD {} :=
  order.foldl_update (fun key entry => if key = "" || npmNameFromKey key = "" then none
    else some (directMeta (directByKey r directDeps key) entry)) _ key

lemma parents_npmDirectDependencyMetadata (order : packages.Order)
    (directDeps : List (String × NpmRootDependency)) (key : String) :
    (npmDirectDependencyMetadata order r directDeps key).parents = [] := by
  rw [npmDirectDependencyMetadata_apply]
  cases packages.get? key with
  | none => rfl
  | some entry =>
    rw [Option.bind_some]
    split <;> rfl

/-- The parents of a key after some edges. -/
lemma foldl_parents (metadata : String → NpmPackageMeta) (edges : List (String × PackageParent))
    (hparents : ∀ key, (metadata key).parents = []) (key : String) :
    edges.foldl (fun metadata edge => Function.update metadata edge.1
        { metadata edge.1 with parents := mergePackageParents (metadata edge.1).parents [edge.2] })
        metadata key =
      { metadata key with parents := parentSet ((edges.filter (·.1 = key)).map Prod.snd) } := by
  induction edges using List.reverseRecOn with
  | nil =>
    have hkey := hparents key
    change metadata key = { metadata key with parents := parentSet [] }
    rw [show parentSet [] = (metadata key).parents from hkey.symm]
  | append_singleton edges edge ih =>
    rw [List.foldl_append, List.foldl_cons, List.foldl_nil, List.filter_append, List.map_append]
    by_cases hkey : edge.1 = key
    · subst hkey
      rw [Function.update_self, ih]
      simp [← mergePackageParents_parentSet]
    · rw [Function.update_of_ne (Ne.symm hkey), ih]
      simp [hkey]

lemma parents_npmPropagateViaRoots (metadata : String → NpmPackageMeta)
    (directDeps : List (String × NpmRootDependency)) (key : String) :
    (npmPropagateViaRoots metadata r directDeps key).parents = (metadata key).parents := by
  unfold npmPropagateViaRoots
  simp only
  split <;> rfl

/-- Parents are collected in sorted sets, so they do not depend on the order. -/
lemma npmCollectParentEdges_eq {metadata : String → NpmPackageMeta}
    (hparents : ∀ key, (metadata key).parents = []) (order order' : packages.Order) :
    npmCollectParentEdges metadata order r = npmCollectParentEdges metadata order' r := by
  funext key
  have hperm : order.list.Perm order'.list := order.perm.trans order'.perm.symm
  rw [npmCollectParentEdges, npmCollectParentEdges, foldl_parents metadata _ hparents,
    foldl_parents metadata _ hparents]
  have hedges := ((hperm.flatMap_right fun entry => parentEdges r entry.1 entry.2).filter
    fun edge => decide (edge.1 = key)).map Prod.snd
  rw [parentSet_congr fun parent => ((hedges.map PackageParent.trimmed).filter _).mem_iff]

end

section

variable {lock : PackageLock} (root : RootOrder lock)

/-- The metadata of the keys does not depend on the orders of the packages map. -/
lemma npmPackageMetadata_eq (orders orders' : PackageOrders lock) :
    npmPackageMetadata lock root orders = npmPackageMetadata lock root orders' := by
  have hresolver := newNPMPackageResolver_eq orders.resolver orders'.resolver
  have hdirect (r : NpmPackageResolver) : npmDirectDependencyMetadata orders.metadata r root.list =
      npmDirectDependencyMetadata orders'.metadata r root.list := by
    funext key
    rw [npmDirectDependencyMetadata_apply, npmDirectDependencyMetadata_apply]
  simp only [npmPackageMetadata, hresolver, hdirect]
  apply npmCollectParentEdges_eq
  intro key
  rw [parents_npmPropagateViaRoots, parents_npmDirectDependencyMetadata]

/-- The packages of a lockfile are the same, as a multiset, for all orders of the packages map, and for
all orders of the flat map of the first version. -/
theorem npmParse_perm (orders orders' : PackageOrders lock) (flat flat' : lock.dependencies.Order) :
    (npmParse lock root orders flat).Perm (npmParse lock root orders' flat') := by
  unfold npmParse
  split
  · rw [npmPackageMetadata_eq root orders orders']
    apply dedup_perm
    · exact (orders.result.perm.trans orders'.result.perm.symm).filterMap _
    · intro pkg hpkg
      obtain ⟨entry, -, hentry⟩ := List.mem_filterMap.mp hpkg
      unfold npmPackage at hentry
      split at hentry
      · cases hentry
      · rw [← Option.some.inj hentry]
  · apply dedup_perm
    · exact (flat.perm.trans flat'.perm.symm).filterMap _
    · intro pkg hpkg
      obtain ⟨entry, -, hentry⟩ := List.mem_filterMap.mp hpkg
      unfold npmFlatPackage at hentry
      split at hentry
      · cases hentry
      · rw [← Option.some.inj hentry]

end

end Packmon.Parser
