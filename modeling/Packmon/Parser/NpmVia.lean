import Packmon.Parser.Npm

/-!
# Via roots of npm packages

The loop of `npmPropagateViaRoots` hands the names of the root's dependencies on along the resolved
dependencies until no key gets a new one.  It ends within as many rounds as there are pairs of a package
and a name (`viaLoop_spec`), because a key is queued only when one of its pairs is new; and what it leaves at a
key are exactly the names of the root dependencies from whose key it can be reached
(`npmPropagateViaRoots_via`).
-/

namespace Packmon.Parser

open Domain GoText Worklist

namespace ViaState

/-- The names and the queue of a state. -/
def flow (s : ViaState) : Flow String String := ⟨s.viaRoots, s.queue⟩

/-- Nothing is refused. -/
abbrev acceptAll : String → List String → String → Bool := fun _ _ _ => true

lemma mem_enqueue {queue : List String} {key key' : String} :
    key' ∈ enqueue queue key ↔ key' ∈ queue ∨ key' = key := by
  unfold enqueue
  split
  · next hin =>
    refine ⟨Or.inl, fun h => h.elim id ?_⟩
    rintro rfl
    exact hin
  · simp

lemma length_enqueue_le (queue : List String) (key : String) :
    (enqueue queue key).length ≤ queue.length + 1 := by
  unfold enqueue
  split
  · exact Nat.le_succ _
  · simp

/-- Offering names to a key. -/
lemma spread_offer (s : ViaState) (key : String) (names : List String) :
    Spread acceptAll (fun key' name => key' = key ∧ name ∈ names) s.flow (s.offer key names).flow := by
  have hadded := @added_addAll _ _ _ _ acceptAll s.viaRoots key names
  change Spread acceptAll _ ⟨s.viaRoots, s.queue⟩ ⟨(addAll acceptAll s.viaRoots key names).1,
    if (addAll acceptAll s.viaRoots key names).2 then enqueue s.queue key else s.queue⟩
  generalize addAll acceptAll s.viaRoots key names = result at hadded ⊢
  apply Spread.of_added hadded
  · intro hchanged
    simp [hchanged]
  · intro hchanged
    simp only [hchanged, if_true]
    exact ⟨fun _ h => mem_enqueue.mpr (Or.inl h), mem_enqueue.mpr (Or.inr rfl), length_enqueue_le _ _⟩

/-- Offering the same names to several keys, but not to the key they come from. -/
lemma spread_foldl_offer (key : String) (names keys : List String) (s : ViaState) :
    Spread acceptAll (fun key' name => (key' ∈ keys ∧ key' ≠ key) ∧ name ∈ names) s.flow
      (keys.foldl (fun s depKey => if depKey = key then s else s.offer depKey names) s).flow := by
  have hstep (s : ViaState) (depKey : String) :
      Spread acceptAll (fun key' name => (key' = depKey ∧ key' ≠ key) ∧ name ∈ names) s.flow
        (if depKey = key then s else s.offer depKey names).flow := by
    split
    · next heq =>
      refine (Spread.refl s.flow).congr fun key' name => ⟨False.elim, ?_⟩
      rintro ⟨⟨rfl, hne⟩, -⟩
      exact hne heq
    · next hne =>
      refine (spread_offer s depKey names).congr fun key' name => ?_
      constructor
      · rintro ⟨rfl, hname⟩
        exact ⟨⟨rfl, hne⟩, hname⟩
      · rintro ⟨⟨rfl, -⟩, hname⟩
        exact ⟨rfl, hname⟩
  refine (Spread.foldl hstep keys s).congr fun key' name => ?_
  constructor
  · rintro ⟨depKey, hdep, ⟨rfl, hne⟩, hname⟩
    exact ⟨⟨hdep, hne⟩, hname⟩
  · rintro ⟨⟨hdep, hne⟩, hname⟩
    exact ⟨key', hdep, ⟨rfl, hne⟩, hname⟩

lemma propagatedRoots_foldl_offer (key : String) (names keys : List String) (s : ViaState) :
    (keys.foldl (fun s depKey => if depKey = key then s else s.offer depKey names) s).propagatedRoots =
      s.propagatedRoots := by
  induction keys generalizing s with
  | nil => rfl
  | cons depKey keys ih =>
    rw [List.foldl_cons, ih]
    split <;> rfl

/-- Before the loop every name is on the key it resolves to, and nothing was handed on. -/
lemma spread_initial (r : NpmPackageResolver) (rootNames : List String) :
    Spread acceptAll (fun key name => name ∈ rootNames ∧ r.rootPackageKey name = some key)
      ⟨fun _ => [], []⟩ (initial r rootNames).flow := by
  unfold initial
  refine (@Spread.foldl _ _ _ _ _ _ flow _ (fun rootName key name => name = rootName ∧ r.rootPackageKey name = some key)
    (fun s rootName => ?_) rootNames ⟨fun _ => [], fun _ => [], []⟩).congr fun key name => ?_
  · split
    · next hnone =>
      refine (Spread.refl s.flow).congr fun key name => ⟨False.elim, ?_⟩
      rintro ⟨rfl, hsome⟩
      rw [hnone] at hsome
      cases hsome
    · next rootKey hsome =>
      refine (spread_offer s rootKey [rootName]).congr fun key name => ?_
      rw [List.mem_singleton]
      constructor
      · rintro ⟨rfl, rfl⟩
        exact ⟨rfl, hsome⟩
      · rintro ⟨rfl, hkey⟩
        exact ⟨Option.some.inj (hkey.symm.trans hsome), rfl⟩
  · constructor
    · rintro ⟨rootName, hname, rfl, hkey⟩
      exact ⟨hname, hkey⟩
    · rintro ⟨hname, hkey⟩
      exact ⟨name, hname, rfl, hkey⟩

lemma propagatedRoots_initial (r : NpmPackageResolver) (rootNames : List String) :
    (initial r rootNames).propagatedRoots = fun _ => [] := by
  unfold initial
  induction rootNames using List.reverseRecOn with
  | nil => rfl
  | append_singleton rootNames rootName ih =>
    rw [List.foldl_append, List.foldl_cons, List.foldl_nil]
    refine Eq.trans ?_ ih
    split <;> rfl

end ViaState

/-! ### The invariant -/

/-- The name resolves to the key. -/
def RootAt (r : NpmPackageResolver) (rootNames : List String) (key name : String) : Prop :=
  name ∈ rootNames ∧ r.rootPackageKey name = some key

/-- The key is a resolved dependency of the other. -/
def DependsOn (r : NpmPackageResolver) (key depKey : String) : Prop :=
  depKey ∈ r.resolvedDependencyKeys key

/-- What holds between the rounds of the loop. -/
structure ViaState.Inv (r : NpmPackageResolver) (rootNames : List String) (s : ViaState) : Prop where
  /-- Only names that lead to the key. -/
  sound : ∀ key, ∀ name ∈ s.viaRoots key, Derivable (RootAt r rootNames) (DependsOn r) key name
  /-- The names of the roots are on their keys. -/
  rooted : ∀ key name, RootAt r rootNames key name → name ∈ s.viaRoots key
  /-- What was handed on is on the dependencies. -/
  settled : ∀ key, ∀ name ∈ s.propagatedRoots key, name ∈ s.viaRoots key ∧
    ∀ depKey, DependsOn r key depKey → name ∈ s.viaRoots depKey
  /-- What was not handed on belongs to a key in the queue. -/
  queued : ∀ key, ∀ name ∈ s.viaRoots key, name ∈ s.propagatedRoots key ∨ key ∈ s.queue
  nodup : ∀ key, (s.viaRoots key).Nodup

section

variable {r : NpmPackageResolver} {rootNames : List String} {s s' : ViaState}

lemma mem_npmPendingViaRoots {roots propagated : List String} {name : String} :
    name ∈ npmPendingViaRoots roots propagated ↔ name ∈ roots ∧ name ∉ propagated := by
  simp [npmPendingViaRoots, sortStrings]

lemma ViaState.inv_initial (r : NpmPackageResolver) (rootNames : List String) :
    (ViaState.initial r rootNames).Inv r rootNames := by
  have hspread := ViaState.spread_initial r rootNames
  have hmem := hspread.mem_iff fun _ _ _ => rfl
  refine ⟨?_, ?_, ?_, ?_, hspread.nodup fun _ => List.nodup_nil⟩
  · intro key name hname
    exact Derivable.of_start (((hmem key name).mp hname).resolve_left (by simp))
  · intro key name hroot
    exact (hmem key name).mpr (Or.inr hroot)
  · intro key name hname
    rw [ViaState.propagatedRoots_initial] at hname
    cases hname
  · intro key name hname
    refine Or.inr ((hspread.queued key).resolve_left fun heq => ?_)
    change (ViaState.initial r rootNames).viaRoots key = [] at heq
    rw [heq] at hname
    cases hname

/-- The pairs of a package and a name. -/
def viaPairs (r : NpmPackageResolver) (rootNames : List String) : Finset (String × String) :=
  (r.packages.entries.map Prod.fst).toFinset ×ˢ rootNames.toFinset

/-- A resolver only finds packages of its map. -/
def NpmPackageResolver.FindsPackages (r : NpmPackageResolver) : Prop :=
  ∀ parentKey name key, r.dependencyKey parentKey name = some key →
    key ∈ r.packages.entries.map Prod.fst

lemma mem_rootNames_of_derivable {key name : String}
    (h : Derivable (RootAt r rootNames) (DependsOn r) key name) : name ∈ rootNames := by
  obtain ⟨rootKey, hroot, -⟩ := h
  exact hroot.1

/-- One round keeps the invariant and leaves less to do. -/
lemma ViaState.Inv.viaRound (hr : r.FindsPackages) (hs : s.Inv r rootNames)
    (hround : viaRound r s = some s') :
    s'.Inv r rootNames ∧ s'.flow.variant (viaPairs r rootNames) < s.flow.variant (viaPairs r rootNames) := by
  unfold Parser.viaRound at hround
  rcases hqueue : s.queue with _ | ⟨key, queue⟩
  · rw [hqueue] at hround
    cases hround
  rw [hqueue] at hround
  simp only at hround
  split at hround
  · -- nothing new at the key: it leaves the queue
    next hpending =>
    obtain rfl := Option.some.inj hround
    refine ⟨{ hs with queued := ?_ }, ?_⟩
    · intro key' name hname
      rcases hs.queued key' name hname with hpropagated | hin
      · exact Or.inl hpropagated
      · rw [hqueue] at hin
        rcases List.mem_cons.mp hin with rfl | hin
        · by_contra hnot
          have hnew : name ∈ npmPendingViaRoots (s.viaRoots key') (s.propagatedRoots key') :=
            mem_npmPendingViaRoots.mpr ⟨hname, fun h => hnot (Or.inl h)⟩
          rw [hpending] at hnew
          cases hnew
        · exact Or.inr hin
    · simp only [Flow.variant, ViaState.flow, hqueue, List.length_cons]
      omega
  · next hpending =>
    obtain rfl := Option.some.inj hround
    generalize hnew : npmPendingViaRoots (s.viaRoots key) (s.propagatedRoots key) = pending at hround ⊢
    have hmemNew {name : String} : name ∈ pending ↔ name ∈ s.viaRoots key ∧ name ∉ s.propagatedRoots key := by
      rw [← hnew, mem_npmPendingViaRoots]
    have hspread := ViaState.spread_foldl_offer key pending (r.resolvedDependencyKeys key)
      { s with
        queue := queue
        propagatedRoots := Function.update s.propagatedRoots key (s.propagatedRoots key ++ pending) }
    have hkept := ViaState.propagatedRoots_foldl_offer key pending (r.resolvedDependencyKeys key)
      { s with
        queue := queue
        propagatedRoots := Function.update s.propagatedRoots key (s.propagatedRoots key ++ pending) }
    generalize (r.resolvedDependencyKeys key).foldl _ _ = result at hspread hkept ⊢
    have hmem : ∀ key' name, name ∈ result.viaRoots key' ↔ name ∈ s.viaRoots key' ∨
        (key' ∈ r.resolvedDependencyKeys key ∧ key' ≠ key) ∧ name ∈ pending :=
      hspread.mem_iff fun _ _ _ => rfl
    have hpropagated {key' name : String} : name ∈ result.propagatedRoots key' ↔
        name ∈ s.propagatedRoots key' ∨ key' = key ∧ name ∈ pending := by
      rw [hkept]
      by_cases hkey : key' = key
      · subst hkey
        simp
      · simp [hkey]
    have hsubset {key' name : String} (h : name ∈ s.viaRoots key') : name ∈ result.viaRoots key' :=
      (hmem key' name).mpr (Or.inl h)
    refine ⟨⟨?_, ?_, ?_, ?_, hspread.nodup hs.nodup⟩, ?_⟩
    · intro key' name hname
      rcases (hmem key' name).mp hname with hname | ⟨⟨hdep, -⟩, hname⟩
      · exact hs.sound key' name hname
      · exact (hs.sound key name (hmemNew.mp hname).1).step hdep
    · intro key' name hroot
      exact hsubset (hs.rooted key' name hroot)
    · intro key' name hname
      rcases hpropagated.mp hname with hname | ⟨rfl, hname⟩
      · obtain ⟨hown, hdeps⟩ := hs.settled key' name hname
        exact ⟨hsubset hown, fun depKey hdep => hsubset (hdeps depKey hdep)⟩
      · refine ⟨hsubset (hmemNew.mp hname).1, fun depKey hdep => ?_⟩
        -- a package that depends on itself has the name already
        by_cases hself : depKey = key'
        · exact hself ▸ hsubset (hmemNew.mp hname).1
        · exact (hmem depKey name).mpr (Or.inr ⟨⟨hdep, hself⟩, hname⟩)
    · intro key' name hname
      rcases hspread.queued key' with hsame | hin
      · change result.viaRoots key' = s.viaRoots key' at hsame
        have hold : name ∈ s.viaRoots key' := hsame ▸ hname
        rcases hs.queued key' name hold with hin | hin
        · exact Or.inl (hpropagated.mpr (Or.inl hin))
        · rw [hqueue] at hin
          rcases List.mem_cons.mp hin with rfl | hin
          · by_cases hold' : name ∈ s.propagatedRoots key'
            · exact Or.inl (hpropagated.mpr (Or.inl hold'))
            · exact Or.inl (hpropagated.mpr (Or.inr ⟨rfl, hmemNew.mpr ⟨hold, hold'⟩⟩))
          · exact Or.inr (hspread.queue hin)
      · exact Or.inr hin
    · have hle := hspread.variant_le (viaPairs r rootNames) (by
        rintro key' name ⟨⟨hdep, -⟩, hname⟩
        have hmem : key' ∈ (r.dependencyNames key).filterMap (r.dependencyKey key) := by
          simpa [NpmPackageResolver.resolvedDependencyKeys, sortStrings] using hdep
        obtain ⟨depName, -, hkey'⟩ := List.mem_filterMap.mp hmem
        rw [viaPairs, Finset.mem_product, List.mem_toFinset, List.mem_toFinset]
        exact ⟨hr key depName key' hkey', mem_rootNames_of_derivable (hs.sound key name (hmemNew.mp hname).1)⟩)
      refine lt_of_le_of_lt hle ?_
      simp only [Flow.variant, ViaState.flow, hqueue, List.length_cons]
      omega

/-- The loop ends with an empty queue only. -/
lemma queue_eq_nil_of_viaRound (h : viaRound r s = none) : s.queue = [] := by
  rcases hqueue : s.queue with _ | ⟨key, queue⟩
  · rfl
  · unfold viaRound at h
    rw [hqueue] at h
    simp only at h
    split at h <;> cases h

/-- The loop ends within its rounds, with the invariant. -/
lemma viaLoop_spec (hr : r.FindsPackages) (rootNames : List String) :
    (viaLoop r rootNames).Inv r rootNames ∧ (viaLoop r rootNames).queue = [] := by
  have hspread := ViaState.spread_initial r rootNames
  have hvariant : (ViaState.initial r rootNames).flow.variant (viaPairs r rootNames) ≤
      r.packages.entries.length * rootNames.length := by
    calc (ViaState.initial r rootNames).flow.variant (viaPairs r rootNames)
        ≤ Flow.variant (viaPairs r rootNames) ⟨fun _ => [], []⟩ := by
          apply hspread.variant_le
          rintro key name ⟨hname, hkey⟩
          rw [viaPairs, Finset.mem_product, List.mem_toFinset, List.mem_toFinset]
          exact ⟨hr "" name key hkey, hname⟩
      _ ≤ (viaPairs r rootNames).card := missing_le_card
      _ ≤ r.packages.entries.length * rootNames.length := by
          rw [viaPairs, Finset.card_product]
          refine Nat.mul_le_mul ?_ (List.toFinset_card_le _)
          exact (List.toFinset_card_le _).trans_eq (List.length_map _)
  have hround (s s' : ViaState) (hs : s.Inv r rootNames) (h : Parser.viaRound r s = some s') :=
    ViaState.Inv.viaRound hr hs h
  obtain ⟨hinv, hnone⟩ := run_spec hround (ViaState.inv_initial r rootNames) hvariant
  exact ⟨hinv, queue_eq_nil_of_viaRound hnone⟩

/-- Behind the loop a key has exactly the names that lead to it. -/
lemma mem_viaLoop_iff (hr : r.FindsPackages) (rootNames : List String) (key name : String) :
    name ∈ (viaLoop r rootNames).viaRoots key ↔
      Derivable (RootAt r rootNames) (DependsOn r) key name := by
  obtain ⟨hinv, hqueue⟩ := viaLoop_spec hr rootNames
  constructor
  · exact hinv.sound key name
  · apply Derivable.closed (P := fun key name => name ∈ (viaLoop r rootNames).viaRoots key)
    · exact fun key name hroot => hinv.rooted key name hroot
    · intro key depKey name hname hdep
      have hpropagated := (hinv.queued key name hname).resolve_right (by simp [hqueue])
      exact (hinv.settled key name hpropagated).2 depKey hdep

end

/-! ### Via sets -/

section

variable {lock : PackageLock}

lemma findsPackages_newNPMPackageResolver {packages : GoMap String PackageLockPkg} (order : packages.Order) :
    (newNPMPackageResolver packages order).FindsPackages := by
  intro parentKey name key hkey
  change key ∈ packages.entries.map Prod.fst
  unfold NpmPackageResolver.dependencyKey at hkey
  split at hkey
  · cases hkey
  · simp only at hkey
    split at hkey
    · next key' hfind =>
      obtain rfl := Option.some.inj hkey
      have hsome := List.find?_some hfind
      change (packages.get? key').isSome = true at hsome
      obtain ⟨entry, hentry⟩ := Option.isSome_iff_exists.mp hsome
      exact List.mem_map.mpr ⟨(key', entry), packages.inOrder.mem_iff.mpr hentry, rfl⟩
    · have hmem : key ∈ sortStrings _ := List.mem_of_mem_head? hkey
      have hin := List.mem_of_mem_filter (Keyset.mem_orderBy.mp hmem)
      exact (order.perm.map Prod.fst).mem_iff.mp hin

/-- A key that no root name resolves to is not direct. -/
lemma directByKey_eq_none {r : NpmPackageResolver} {directDeps : List (String × NpmRootDependency)}
    {key : String} (h : ∀ dep ∈ directDeps, r.rootPackageKey dep.1 ≠ some key) :
    directByKey r directDeps key = none := by
  unfold directByKey
  induction directDeps using List.reverseRecOn with
  | nil => rfl
  | append_singleton directDeps dep ih =>
    rw [List.foldl_append, List.foldl_cons, List.foldl_nil]
    have hrest := ih fun dep' hdep' => h dep' (List.mem_append_left _ hdep')
    have hlast : r.rootPackageKey dep.1 ≠ some key := h dep (by simp)
    rcases hkey' : r.rootPackageKey dep.1 with _ | key'
    · exact hrest
    · have hne : key ≠ key' := fun heq => hlast (heq ▸ hkey')
      exact (Function.update_of_ne hne _ _).trans hrest

lemma not_isBlank_of_mem_npmRootDependencies {root : PackageLockPkg} {dep : String × NpmRootDependency}
    (h : dep ∈ npmRootDependencies root) : isBlank dep.1 = false := by
  have hkey : dep.1 ∈ (npmRootDependencies root).map Prod.fst := List.mem_map_of_mem h
  have hmerge (old new : String × NpmRootDependency) : (old.1, old.2.or new.2).1 = old.1 := rfl
  rw [npmRootDependencies, KeyedMerge.mem_map_key_collect hmerge] at hkey
  simp only [List.map_append, List.map_map, List.mem_append, List.mem_map, List.mem_filter,
    Function.comp_apply, Bool.not_eq_true'] at hkey
  rcases hkey with ((⟨name, hname, rfl⟩ | ⟨name, hname, rfl⟩) | ⟨name, hname, rfl⟩) | ⟨name, hname, rfl⟩ <;>
    exact hname.2

/-- The loop over the names ends with an empty queue; and a key that is no direct dependency has, in
order, exactly the names of the root dependencies from whose resolved key it can be reached along
resolved dependencies. -/
theorem npmPropagateViaRoots_via (root : RootOrder lock) (resolverOrder metadataOrder : lock.packages.Order) :
    let r := newNPMPackageResolver lock.packages resolverOrder
    (viaLoop r (sortStrings (root.list.map Prod.fst))).queue = [] ∧
      ∀ key, (∀ dep ∈ root.list, r.rootPackageKey dep.1 ≠ some key) →
        let via := (npmPropagateViaRoots (npmDirectDependencyMetadata metadataOrder r root.list) r
          root.list key).via
        via.Pairwise (· < ·) ∧
          ∀ name, name ∈ via ↔ name ∈ root.list.map Prod.fst ∧ ∃ rootKey,
            r.rootPackageKey name = some rootKey ∧
              Relation.ReflTransGen (fun key depKey => depKey ∈ r.resolvedDependencyKeys key) rootKey key := by
  intro r
  have hr : r.FindsPackages := findsPackages_newNPMPackageResolver resolverOrder
  obtain ⟨hinv, hqueue⟩ := viaLoop_spec hr (sortStrings (root.list.map Prod.fst))
  refine ⟨hqueue, ?_⟩
  intro key hkey
  have hmem (name : String) := mem_viaLoop_iff hr (sortStrings (root.list.map Prod.fst)) key name
  have hnodup := hinv.nodup key
  generalize hroots : (viaLoop r (sortStrings (root.list.map Prod.fst))).viaRoots key = roots at hmem hnodup
  have hnone : directByKey r root.list key = none := directByKey_eq_none hkey
  -- no name of a root dependency is blank, so the sorted set drops none
  have hblank : roots.filter (!isBlank ·) = roots := by
    rw [List.filter_eq_self]
    intro name hname
    have hin := mem_rootNames_of_derivable ((hmem name).mp hname)
    obtain ⟨dep, hdep, rfl⟩ := List.mem_map.mp (Keyset.mem_orderBy.mp hin)
    simp [not_isBlank_of_mem_npmRootDependencies (root.perm.mem_iff.mp hdep)]
  have hvia : (npmPropagateViaRoots (npmDirectDependencyMetadata metadataOrder r root.list) r root.list
      key).via = sortStrings roots := by
    have hmeta : (npmDirectDependencyMetadata metadataOrder r root.list key).direct = false ∧
        (npmDirectDependencyMetadata metadataOrder r root.list key).via = [] := by
      rw [npmDirectDependencyMetadata_apply]
      cases lock.packages.get? key with
      | none => exact ⟨rfl, rfl⟩
      | some entry =>
        rw [Option.bind_some]
        split
        · exact ⟨rfl, rfl⟩
        · exact ⟨by simp [directMeta, hnone], rfl⟩
    unfold npmPropagateViaRoots
    simp only [hroots, hmeta.1, Bool.or_false, decide_eq_true_eq]
    split
    · next hempty => rw [hmeta.2, hempty]; rfl
    · rw [npmSortedStringSet, hblank]
  simp only [hvia]
  refine ⟨Keyset.pairwise_lt_orderBy (by simpa using hnodup), ?_⟩
  intro name
  rw [sortStrings, Keyset.mem_orderBy, hmem]
  constructor
  · rintro ⟨rootKey, ⟨hname, hrootKey⟩, hpath⟩
    exact ⟨Keyset.mem_orderBy.mp hname, rootKey, hrootKey, hpath⟩
  · rintro ⟨hname, rootKey, hrootKey, hpath⟩
    exact ⟨rootKey, ⟨Keyset.mem_orderBy.mpr hname, hrootKey⟩, hpath⟩

end

/-- The root depends on `a`, which depends on `b`. -/
def chainLock : PackageLock where
  packages := ⟨[("", { dependencies := ["a"] }), ("node_modules/a", { version := "1", dependencies := ["b"] }),
    ("node_modules/b", { version := "2" })], by decide⟩
  dependencies := ⟨[], by decide⟩

def chainResolver : NpmPackageResolver := newNPMPackageResolver chainLock.packages chainLock.packages.inOrder

lemma chainResolver_dependencyKey :
    chainResolver.dependencyKey "node_modules/a" "b" = some "node_modules/b" := by
  have henclosing : NpmPackageResolver.enclosing "node_modules/a".toList = ["node_modules/a".toList] := by
    rw [NpmPackageResolver.enclosing]
    split
    · rfl
    · next idx hidx =>
      have hnone : lastIndex "/node_modules/".toList "node_modules/a".toList = none := by decide
      rw [hnone] at hidx
      cases hidx
  unfold NpmPackageResolver.dependencyKey
  rw [henclosing]
  decide

theorem chainLock_via : "a" ∈ (npmPropagateViaRoots
    (npmDirectDependencyMetadata chainLock.packages.inOrder chainResolver chainLock.directDeps) chainResolver
      chainLock.directDeps "node_modules/b").via := by
  refine (((npmPropagateViaRoots_via ⟨chainLock.directDeps, List.Perm.refl _⟩ chainLock.packages.inOrder
    chainLock.packages.inOrder).2 "node_modules/b" (by decide)).2 "a").mpr ⟨by decide, "node_modules/a", by decide, ?_⟩
  apply Relation.ReflTransGen.single
  refine Keyset.mem_orderBy.mpr (List.mem_filterMap.mpr ⟨"b", by decide, ?_⟩)
  exact chainResolver_dependencyKey

end Packmon.Parser
