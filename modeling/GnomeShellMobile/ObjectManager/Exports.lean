import Mathlib.Tactic.ByContra
import GnomeShellMobile.ObjectManager.Manager

/-!
# ObjectManager — the two maps and the remote exports

Once nothing is being initialized, `_interfaces` should list the proxies stored in `_objects`,
each once, and the objects should be those on which something known is exported. The maps are
changed at once when an interface is removed, but only after an `await` when one is added, so
this holds of the runs whose steps are `InStep`.

* **`Indexed`**: the lists of `_interfaces` against the entries of `_objects`.
* **`Covered`**: an exported object is present, or something is awaited that may add it.
* **`consistent_step`**: the step lemma; **`agree_of_reach`**: the result.
-/

namespace ObjectManager

namespace State

def Stored (s : State) (path : ObjectPath) (name : InterfaceName) (p : Proxy) : Prop :=
  ∃ object, s.objects.get? path = some object ∧ object.get? name = some p

def Exported (s : State) (path : ObjectPath) (name : InterfaceName) : Prop :=
  (path, name) ∈ s.exports ∧ name ∈ s.interfaceInfos
deriving Decidable

structure Quiet (s : State) : Prop where
  managerProxy : s.managerProxy ≠ .initializing
  inits : s.inits = []
  loads : s.loads = []

/-- `_interfaces` lists the stored proxies, each once. -/
structure Indexed (s : State) : Prop where
  nodup : ∀ name, (s.getProxiesForInterface name).Nodup
  mem : ∀ name p, p ∈ s.getProxiesForInterface name ↔ ∃ path, s.Stored path name p

structure Agree (s : State) : Prop where
  indexed : s.Indexed
  present : ∀ path, s.objects.has path ↔ ∃ name, s.Exported path name

/-- The object at `path` is present, or may be added by what is awaited. -/
def Covered (s : State) (path : ObjectPath) : Prop :=
  s.objects.has path ∨ (∃ p ∈ s.inits, p.objectPath = path) ∨ s.loads ≠ [] ∨
    s.managerProxy = .initializing
deriving Decidable

def AllCovered (s : State) : Prop :=
  ∀ e ∈ s.exports, e.2 ∈ s.interfaceInfos → s.Covered e.1
deriving Decidable

/-- `_removeInterface(path, name)` goes well: the object is not there, or it has more interfaces
than one, or `name` is its only interface and nothing on it stays exported that is not about to
be added. -/
def RemovalInStep (s : State) (path : ObjectPath) (name : InterfaceName) : Prop :=
  match s.objects.get? path with
  | none => True
  | some object => 1 < object.size ∨
      object.has name ∧ ({ s with objects := s.objects.erase path } : State).AllCovered

instance (s : State) (path : ObjectPath) (name : InterfaceName) :
    Decidable (s.RemovalInStep path name) :=
  match h : s.objects.get? path with
  | none => .isTrue (by simp [RemovalInStep, h])
  | some object => decidable_of_iff (1 < object.size ∨
      object.has name ∧ ({ s with objects := s.objects.erase path } : State).AllCovered)
      (by simp [RemovalInStep, h])

/-- Each removal of `InterfacesRemoved` goes well, in the state it finds. -/
def RemovalsInStep (s : State) (path : ObjectPath) : List InterfaceName → Prop
  | [] => True
  | name :: names => s.RemovalInStep path name ∧ (s.removeInterface path name).RemovalsInStep path names

instance decidableRemovalsInStep (s : State) (path : ObjectPath) :
    (names : List InterfaceName) → Decidable (s.RemovalsInStep path names)
  | [] => .isTrue trivial
  | name :: names =>
    have := decidableRemovalsInStep (s.removeInterface path name) path names
    inferInstanceAs (Decidable (s.RemovalInStep path name ∧ _))

end State

open State

def InStep (s : State) : Event → Prop
  | .managerInit ok => ok = true ∨ s.interfaceInfos = []
  | .initDone i ok =>
    match s.inits[i]? with
    | none => True
    | some proxy =>
      if ok then
        -- still exported, and not stored yet
        s.Exported proxy.objectPath proxy.interfaceName ∧
          s.getProxy proxy.objectPath proxy.interfaceName = none
      else (s.endInit i).AllCovered
  | .loadDone i ok => ok = true ∨ (s.endLoad i).AllCovered
  | .interfacesRemoved path names => (s.removeExports path names).RemovalsInStep path names
  | .interfacesAdded _ _ | .nameAppeared _ | .nameVanished => True

instance (s : State) : (e : Event) → Decidable (InStep s e)
  | .managerInit ok => inferInstanceAs (Decidable (ok = true ∨ s.interfaceInfos = []))
  | .initDone i true =>
    match h : s.inits[i]? with
    | none => .isTrue (by simp [InStep, h])
    | some proxy => decidable_of_iff (s.Exported proxy.objectPath proxy.interfaceName ∧
        s.getProxy proxy.objectPath proxy.interfaceName = none) (by simp [InStep, h])
  | .initDone i false =>
    match h : s.inits[i]? with
    | none => .isTrue (by simp [InStep, h])
    | some _ => decidable_of_iff (s.endInit i).AllCovered (by simp [InStep, h])
  | .loadDone i ok => inferInstanceAs (Decidable (ok = true ∨ (s.endLoad i).AllCovered))
  | .interfacesRemoved path names =>
    inferInstanceAs (Decidable ((s.removeExports path names).RemovalsInStep path names))
  | .interfacesAdded _ _ => .isTrue trivial
  | .nameAppeared _ => .isTrue trivial
  | .nameVanished => .isTrue trivial

namespace State

variable {s : State} {path : ObjectPath} {name : InterfaceName} {p : Proxy}

/-! ## The maps -/

/-- The maps agree with each other: `_interfaces` is an index of `_objects`, a proxy is stored
under its own names, and no object is empty. -/
structure Maps (s : State) : Prop where
  indexed : s.Indexed
  named : ∀ {path name p}, s.Stored path name p → p.objectPath = path ∧ p.interfaceName = name
  nonempty : ∀ {path object}, s.objects.get? path = some object →
    ∃ name p, object.get? name = some p

theorem stored_iff_getProxy : s.Stored path name p ↔ s.getProxy path name = some p := by
  simp [Stored, getProxy, Option.bind_eq_some_iff]

theorem Stored.unique {p q : Proxy}
    (hp : s.Stored path name p) (hq : s.Stored path name q) : p = q := by
  rw [stored_iff_getProxy] at hp hq
  exact Option.some.inj (hp.symm.trans hq)

def rest (s : State) : List InterfaceName × ManagerProxy × List Proxy × List Nat × Option Nat ×
    List (ObjectPath × InterfaceName) :=
  (s.interfaceInfos, s.managerProxy, s.inits, s.loads, s.owner, s.exports)

theorem Maps.congr {s s' : State} (h : s.Maps) (ho : s'.objects = s.objects)
    (hi : s'.interfaces = s.interfaces) : s'.Maps := by
  have hst : ∀ path name p, s'.Stored path name p ↔ s.Stored path name p := fun path name p => by
    simp only [Stored, ho]
  have hget : ∀ name, s'.getProxiesForInterface name = s.getProxiesForInterface name :=
    fun name => by simp only [getProxiesForInterface, hi]
  refine ⟨⟨fun name => ?_, fun name p => ?_⟩, fun hs => h.named ((hst _ _ _).mp hs), fun hs => ?_⟩
  · rw [hget]
    exact h.indexed.nodup name
  · simp only [hget, hst]
    exact h.indexed.mem name p
  · exact h.nonempty (ho ▸ hs)

theorem Maps.of_lists (hnodup : ∀ name, (s.getProxiesForInterface name).Nodup)
    (hmem : ∀ name p, p ∈ s.getProxiesForInterface name ↔ ∃ path, s.Stored path name p)
    (hnamed : ∀ path name p, s.Stored path name p → p.objectPath = path ∧ p.interfaceName = name)
    (hne : ∀ path object, s.objects.get? path = some object →
      ∃ name p, object.get? name = some p) : s.Maps :=
  ⟨⟨hnodup, hmem⟩, fun h => hnamed _ _ _ h, fun h => hne _ _ h⟩

/-! ## Removing an interface -/

theorem setProxies_get (s : State) (name : InterfaceName) (proxies : List Proxy)
    (n : InterfaceName) : (s.setProxies name proxies).getProxiesForInterface n =
      if n = name then proxies else s.getProxiesForInterface n := by
  unfold setProxies
  by_cases hnil : proxies = []
  · by_cases hn : n = name <;> simp [getProxiesForInterface, hnil, hn, Dict.get?_erase_of_ne]
  · by_cases hn : n = name <;> simp [getProxiesForInterface, hnil, hn, Dict.get?_set_of_ne]

theorem unlistProxy_get (s : State) (name : InterfaceName) (proxy : Option Proxy)
    (n : InterfaceName) : (s.unlistProxy name proxy).getProxiesForInterface n =
      if n = name then spliceProxy (s.getProxiesForInterface n) proxy
      else s.getProxiesForInterface n := by
  cases hget : s.interfaces.get? name with
  | none =>
    -- there is no list, and nothing in it
    simp only [unlistProxy, hget]
    split
    · next hn =>
      subst hn
      cases proxy <;> simp [getProxiesForInterface, spliceProxy, hget]
    · rfl
  | some proxies =>
    simp only [unlistProxy, hget, setProxies_get]
    split
    · next hn =>
      subst hn
      simp [getProxiesForInterface, hget]
    · rfl

theorem unlistProxy_objects (s : State) (name : InterfaceName) (proxy : Option Proxy) :
    (s.unlistProxy name proxy).objects = s.objects ∧ (s.unlistProxy name proxy).rest = s.rest := by
  unfold unlistProxy setProxies
  split
  · exact ⟨rfl, rfl⟩
  · split <;> exact ⟨rfl, rfl⟩

theorem removeInterface_none (name : InterfaceName)
    (h : s.objects.get? path = none) : s.removeInterface path name = s := by
  simp [removeInterface, h]

theorem removeInterface_objects {object : Dict InterfaceName Proxy} (name : InterfaceName)
    (h : s.objects.get? path = some object) : (s.removeInterface path name).objects =
      if 1 < object.size then s.objects.set path (object.erase name) else s.objects.erase path := by
  have hobj := (unlistProxy_objects s name (object.get? name)).1
  simp only [removeInterface, h]
  split
  · exact congrArg (fun d => d.set path (object.erase name)) hobj
  · exact congrArg (fun d => d.erase path) hobj

theorem removeInterface_lists {object : Dict InterfaceName Proxy} (name : InterfaceName)
    (h : s.objects.get? path = some object) (n : InterfaceName) :
    (s.removeInterface path name).getProxiesForInterface n =
      if n = name then spliceProxy (s.getProxiesForInterface n) (object.get? name)
      else s.getProxiesForInterface n := by
  rw [← unlistProxy_get]
  simp only [removeInterface, h]
  split <;> rfl

theorem removeInterface_rest (s : State) (path : ObjectPath) (name : InterfaceName) :
    (s.removeInterface path name).rest = s.rest := by
  unfold removeInterface
  cases h : s.objects.get? path with
  | none => rfl
  | some object =>
    have hrest := (unlistProxy_objects s name (object.get? name)).2
    dsimp only
    split <;> exact hrest

theorem removeInterface_stored
    (hin : s.RemovalInStep path name) (path' : ObjectPath) (name' : InterfaceName) (p : Proxy) :
    (s.removeInterface path name).Stored path' name' p ↔
      s.Stored path' name' p ∧ ¬ (path' = path ∧ name' = name) := by
  cases h : s.objects.get? path with
  | none =>
    rw [removeInterface_none name h]
    refine ⟨fun hs => ⟨hs, ?_⟩, fun hs => hs.1⟩
    rintro ⟨rfl, -⟩
    obtain ⟨object, ho, -⟩ := hs
    rw [h] at ho
    cases ho
  | some object =>
    simp only [Stored, removeInterface_objects name h]
    by_cases hp : path' = path
    · subst hp
      split
      · simp only [Dict.get?_set_self, Option.some.injEq, exists_eq_left', h, true_and,
          Dict.get?_erase]
        by_cases hn : name' = name <;> simp [hn]
      · next hsize =>
        -- the only interface of the object goes, and the object with it
        simp only [RemovalInStep, h, hsize, false_or, Dict.has_iff] at hin
        obtain ⟨⟨q, hq⟩, -⟩ := hin
        simp only [Dict.get?_erase_self, reduceCtorEq, false_and, exists_false, false_iff, h,
          Option.some.injEq, exists_eq_left', true_and]
        rintro ⟨hp', hne⟩
        exact hne (Dict.eq_of_size_le_one (Nat.le_of_not_lt hsize) hq hp')
    · split <;> simp [hp, Dict.get?_set_of_ne, Dict.get?_erase_of_ne]

theorem Maps.removeInterface
    (h : s.Maps) (hin : s.RemovalInStep path name) : (s.removeInterface path name).Maps := by
  cases hget : s.objects.get? path with
  | none =>
    rw [removeInterface_none name hget]
    exact h
  | some object =>
    have hst := removeInterface_stored hin
    refine .of_lists (fun n => ?_) (fun n p => ?_)
      (fun path' n p hs => h.named ((hst path' n p).mp hs).1) (fun path' object' ho => ?_)
    · rw [removeInterface_lists name hget]
      have hn := h.indexed.nodup n
      split
      · cases object.get? name with
        | none => exact hn
        | some q => exact hn.erase q
      · exact hn
    · rw [removeInterface_lists name hget]
      simp only [hst]
      by_cases hn : n = name
      · subst hn
        rw [if_pos rfl]
        cases hq : object.get? n with
        | none =>
          -- the interface is not stored, so its list has no proxy of this object
          rw [spliceProxy, h.indexed.mem n p]
          refine exists_congr fun path' => ⟨fun hs => ⟨hs, ?_⟩, fun hs => hs.1⟩
          rintro ⟨rfl, -⟩
          obtain ⟨object', ho, hp⟩ := hs
          rw [hget, Option.some.injEq] at ho
          rw [← ho, hq] at hp
          cases hp
        | some q =>
          have hqs : s.Stored path n q := ⟨object, hget, hq⟩
          rw [spliceProxy, (h.indexed.nodup n).mem_erase_iff, h.indexed.mem n p]
          constructor
          · rintro ⟨hne, path', hs⟩
            refine ⟨path', hs, ?_⟩
            rintro ⟨rfl, -⟩
            exact hne (hs.unique hqs)
          · rintro ⟨path', hs, hne⟩
            refine ⟨?_, path', hs⟩
            rintro rfl
            have hpath : path' = path := (h.named hs).1.symm.trans (h.named hqs).1
            exact hne ⟨hpath, rfl⟩
      · rw [if_neg hn, h.indexed.mem n p]
        simp [hn]
    · rw [removeInterface_objects name hget] at ho
      split at ho
      · next hsize =>
        by_cases hp : path' = path
        · rw [hp, Dict.get?_set_self, Option.some.injEq] at ho
          obtain ⟨n, p, hne, hn⟩ := Dict.exists_ne_of_one_lt_size hsize name
          exact ⟨n, p, by rw [← ho, Dict.get?_erase_of_ne _ hne, hn]⟩
        · rw [Dict.get?_set_of_ne _ _ hp] at ho
          exact h.nonempty ho
      · by_cases hp : path' = path
        · rw [hp, Dict.get?_erase_self] at ho
          cases ho
        · rw [Dict.get?_erase_of_ne _ hp] at ho
          exact h.nonempty ho

/-! ## Removing everything

When the name vanishes, each interface that is removed is one that is stored. -/

theorem RemovalInStep.of_unowned
    (hexp : s.exports = []) (hs : (s.getProxy path name).isSome) : s.RemovalInStep path name := by
  obtain ⟨p, hp⟩ := Option.isSome_iff_exists.mp hs
  obtain ⟨object, ho, hn⟩ := stored_iff_getProxy.mpr hp
  simp only [RemovalInStep, ho]
  exact .inr ⟨Dict.has_iff.mpr ⟨p, hn⟩, by simp [AllCovered, hexp]⟩

theorem exports_of_rest {s s' : State} (h : s'.rest = s.rest) : s'.exports = s.exports := by
  simp only [rest, Prod.mk.injEq] at h
  exact h.2.2.2.2.2

theorem removeInterfaces_spec (path : ObjectPath) (names : List InterfaceName)
    (h : s.Maps) (hexp : s.exports = []) (hleft : ∀ name p, s.Stored path name p → name ∈ names) :
    (s.removeInterfaces path names).Maps ∧ (s.removeInterfaces path names).rest = s.rest ∧
      ∀ path' name p, (s.removeInterfaces path names).Stored path' name p ↔
        s.Stored path' name p ∧ path' ≠ path := by
  induction names generalizing s with
  | nil =>
    refine ⟨h, rfl, fun path' name p => ⟨fun hs => ⟨hs, ?_⟩, fun hs => hs.1⟩⟩
    rintro rfl
    exact absurd (hleft name p hs) List.not_mem_nil
  | cons n names ih =>
    have hfold : s.removeInterfaces path (n :: names) =
        (if (s.getProxy path n).isSome then s.removeInterface path n else s).removeInterfaces path
          names := rfl
    rw [hfold]
    split
    · next hn =>
      have hin := RemovalInStep.of_unowned hexp hn
      have hst := removeInterface_stored hin
      have hrest := removeInterface_rest s path n
      obtain ⟨hm, hr, hi⟩ := ih (h.removeInterface hin) ((exports_of_rest hrest).trans hexp)
        fun name p hs => by
          obtain ⟨hs, hne⟩ := (hst path name p).mp hs
          exact (List.mem_cons.mp (hleft name p hs)).resolve_left fun heq => hne ⟨rfl, heq⟩
      refine ⟨hm, hr.trans hrest, fun path' name p => ?_⟩
      rw [hi, hst]
      constructor
      · exact fun hs => ⟨hs.1.1, hs.2⟩
      · exact fun hs => ⟨⟨hs.1, fun heq => hs.2 heq.1⟩, hs.2⟩
    · next hn =>
      -- removed already
      refine ih h hexp fun name p hs => (List.mem_cons.mp (hleft name p hs)).resolve_left ?_
      rintro rfl
      rw [stored_iff_getProxy.mp hs] at hn
      simp at hn

theorem removeObject_spec (path : ObjectPath) (h : s.Maps) (hexp : s.exports = []) :
    (s.removeObject path).Maps ∧ (s.removeObject path).rest = s.rest ∧
      ∀ path' name p, (s.removeObject path).Stored path' name p ↔
        s.Stored path' name p ∧ path' ≠ path := by
  unfold removeObject
  cases hget : s.objects.get? path with
  | none =>
    refine ⟨h, rfl, fun path' name p => ⟨fun hs => ⟨hs, ?_⟩, fun hs => hs.1⟩⟩
    rintro rfl
    obtain ⟨object, ho, -⟩ := hs
    rw [hget] at ho
    cases ho
  | some object =>
    refine removeInterfaces_spec path object.keys h hexp fun name p hs => ?_
    obtain ⟨object', ho, hn⟩ := hs
    rw [hget, Option.some.injEq] at ho
    exact Dict.mem_keys_iff.mpr ⟨p, ho ▸ hn⟩

theorem removeObjects_spec (paths : List ObjectPath) (h : s.Maps) (hexp : s.exports = []) :
    (paths.foldl removeObject s).Maps ∧ (paths.foldl removeObject s).rest = s.rest ∧
      ∀ path' name p, (paths.foldl removeObject s).Stored path' name p ↔
        s.Stored path' name p ∧ path' ∉ paths := by
  induction paths generalizing s with
  | nil => exact ⟨h, rfl, fun path' name p => by simp⟩
  | cons path paths ih =>
    obtain ⟨hm, hr, hi⟩ := removeObject_spec path h hexp
    obtain ⟨hm', hr', hi'⟩ := ih hm ((exports_of_rest hr).trans hexp)
    refine ⟨hm', hr'.trans hr, fun path' name p => ?_⟩
    rw [List.foldl_cons, hi', hi, List.mem_cons, not_or, and_assoc]

theorem onNameVanished_spec (h : s.Maps) (hexp : s.exports = []) :
    s.onNameVanished.Maps ∧ s.onNameVanished.rest = s.rest ∧
      ∀ path, s.onNameVanished.objects.get? path = none := by
  obtain ⟨hm, hr, hi⟩ := removeObjects_spec s.objects.keys h hexp
  refine ⟨hm, hr, fun path => Option.eq_none_iff_forall_ne_some.mpr fun object ho => ?_⟩
  obtain ⟨name, p, hn⟩ := hm.nonempty ho
  obtain ⟨⟨object', ho', -⟩, hkey⟩ := (hi path name p).mp ⟨object, ho, hn⟩
  exact hkey (Dict.mem_keys_iff.mpr ⟨object', ho'⟩)

/-! ## Adding an interface -/

theorem addProxy_rest (s : State) (p : Proxy) : (s.addProxy p).rest = s.rest := by
  unfold addProxy
  dsimp only
  split <;> rfl

theorem addProxy_objects (s : State) (p : Proxy) : (s.addProxy p).objects =
    s.objects.set p.objectPath
      (((s.objects.get? p.objectPath).getD .empty).set p.interfaceName p) := by
  unfold addProxy
  dsimp only
  split <;> rfl

theorem addProxy_lists (s : State) (p : Proxy) (n : InterfaceName) :
    (s.addProxy p).getProxiesForInterface n = if n = p.interfaceName then
      s.getProxiesForInterface n ++ [p] else s.getProxiesForInterface n := by
  have hlist : (s.addProxy p).interfaces = s.interfaces.set p.interfaceName
      (s.getProxiesForInterface p.interfaceName ++ [p]) := by
    unfold addProxy
    dsimp only
    split <;> rfl
  simp only [getProxiesForInterface, hlist, Dict.get?_set]
  split
  · next hn => simp [hn]
  · rfl

theorem addProxy_stored (s : State) (p : Proxy) (path : ObjectPath) (name : InterfaceName)
    (q : Proxy) : (s.addProxy p).Stored path name q ↔
      path = p.objectPath ∧ name = p.interfaceName ∧ q = p ∨
        ¬ (path = p.objectPath ∧ name = p.interfaceName) ∧ s.Stored path name q := by
  simp only [Stored, addProxy_objects, Dict.get?_set]
  by_cases hp : path = p.objectPath
  · subst hp
    by_cases hn : name = p.interfaceName
    · simp [hn, eq_comm]
    · cases hget : s.objects.get? p.objectPath <;> simp [Dict.get?_set, hn]
  · simp [hp]

theorem Maps.addProxy (h : s.Maps)
    (hnew : s.getProxy p.objectPath p.interfaceName = none) : (s.addProxy p).Maps := by
  have hst := addProxy_stored s p
  have hfree : ∀ q, ¬ s.Stored p.objectPath p.interfaceName q := fun q hq => by
    rw [stored_iff_getProxy, hnew] at hq
    cases hq
  refine .of_lists (fun n => ?_) (fun n q => ?_) (fun path n q hs => ?_) (fun path object ho => ?_)
  · rw [addProxy_lists]
    split
    · next hn =>
      refine List.nodup_append.mpr ⟨h.indexed.nodup n, List.nodup_singleton p, ?_⟩
      intro a ha b hb
      rw [List.mem_singleton.mp hb]
      rintro rfl
      -- `a` is not listed, since it would be stored at its own place
      obtain ⟨path, hs⟩ := (h.indexed.mem n a).mp ha
      obtain ⟨rfl, rfl⟩ := h.named hs
      exact hfree a hs
    · exact h.indexed.nodup n
  · rw [addProxy_lists]
    simp only [hst]
    by_cases hn : n = p.interfaceName
    · rw [if_pos hn, List.mem_append, List.mem_singleton, h.indexed.mem n q]
      constructor
      · rintro (⟨path, hs⟩ | rfl)
        · refine ⟨path, .inr ⟨?_, hs⟩⟩
          rintro ⟨rfl, rfl⟩
          exact hfree q hs
        · exact ⟨_, .inl ⟨rfl, hn, rfl⟩⟩
      · rintro ⟨path, ⟨-, -, rfl⟩ | ⟨-, hs⟩⟩
        · exact .inr rfl
        · exact .inl ⟨path, hs⟩
    · rw [if_neg hn, h.indexed.mem n q]
      simp [hn]
  · rcases (hst path n q).mp hs with ⟨rfl, rfl, rfl⟩ | ⟨-, hs⟩
    · exact ⟨rfl, rfl⟩
    · exact h.named hs
  · rw [addProxy_objects, Dict.get?_set] at ho
    split at ho
    · cases ho
      exact ⟨p.interfaceName, p, Dict.get?_set_self _ _ _⟩
    · exact h.nonempty ho

/-! ## What is covered -/

theorem Covered.mono {s s' : State} (h : s.Covered path)
    (ho : s.objects.has path → s'.objects.has path)
    (hi : ∀ p ∈ s.inits, p.objectPath = path → p ∈ s'.inits) (hl : s.loads ≠ [] → s'.loads ≠ [])
    (hm : s.managerProxy = .initializing → s'.managerProxy = .initializing) : s'.Covered path := by
  rcases h with h | ⟨p, hp, hpath⟩ | h | h
  · exact .inl (ho h)
  · exact .inr (.inl ⟨p, hi p hp hpath, hpath⟩)
  · exact .inr (.inr (.inl (hl h)))
  · exact .inr (.inr (.inr (hm h)))

theorem AllCovered.congr {s s' : State} (h : s.AllCovered) (ho : s'.objects = s.objects)
    (hr : s'.rest = s.rest) : s'.AllCovered := by
  simp only [rest, Prod.mk.injEq] at hr
  obtain ⟨hinfos, hm, hi, hl, -, he⟩ := hr
  intro e hmem hknown
  rw [he] at hmem
  rw [hinfos] at hknown
  exact (h e hmem hknown).mono (fun h => ho ▸ h) (fun p hp _ => hi ▸ hp) (fun h => hl ▸ h)
    (fun h => hm ▸ h)

theorem AllCovered.removeInterface (h : s.AllCovered) (hin : s.RemovalInStep path name) :
    (s.removeInterface path name).AllCovered := by
  have hrest := removeInterface_rest s path name
  cases hget : s.objects.get? path with
  | none =>
    rw [removeInterface_none name hget]
    exact h
  | some object =>
    have hobj := removeInterface_objects name hget
    by_cases hsize : 1 < object.size
    · -- the object stays
      rw [if_pos hsize] at hobj
      simp only [rest, Prod.mk.injEq] at hrest
      obtain ⟨hinfos, hm, hi, hl, -, he⟩ := hrest
      intro e hmem hknown
      rw [he] at hmem
      rw [hinfos] at hknown
      refine (h e hmem hknown).mono (fun hhas => ?_) (fun p hp _ => hi ▸ hp) (fun h => hl ▸ h)
        (fun h => hm ▸ h)
      rw [hobj, Dict.has_iff, Dict.get?_set]
      split
      · exact ⟨_, rfl⟩
      · exact Dict.has_iff.mp hhas
    · simp only [RemovalInStep, hget, hsize, false_or] at hin
      rw [if_neg hsize] at hobj
      exact hin.2.congr hobj hrest

theorem removals_spec {names : List InterfaceName}
    (h : s.Maps) (hcov : s.AllCovered) (hin : s.RemovalsInStep path names) :
    (names.foldl (fun s name => s.removeInterface path name) s).Maps ∧
      (names.foldl (fun s name => s.removeInterface path name) s).AllCovered ∧
      (names.foldl (fun s name => s.removeInterface path name) s).rest = s.rest ∧
      ∀ path' name p, (names.foldl (fun s name => s.removeInterface path name) s).Stored path' name p ↔
        s.Stored path' name p ∧ ¬ (path' = path ∧ name ∈ names) := by
  induction names generalizing s with
  | nil => exact ⟨h, hcov, rfl, fun path' name p => by simp⟩
  | cons n names ih =>
    obtain ⟨hn, hrest⟩ := hin
    obtain ⟨hm, hc, hr, hi⟩ := ih (h.removeInterface hn) (hcov.removeInterface hn) hrest
    refine ⟨hm, hc, hr.trans (removeInterface_rest s path n), fun path' name p => ?_⟩
    rw [List.foldl_cons, hi, removeInterface_stored hn, List.mem_cons]
    tauto

theorem addObjects_spec (s : State) (objects : List (ObjectPath × InterfaceName)) :
    ∃ inits serial, s.addObjects objects = { s with inits := s.inits ++ inits, serial := serial } ∧
      ∀ e ∈ objects, e.2 ∈ s.interfaceInfos → ∃ p ∈ inits, p.objectPath = e.1 := by
  induction objects generalizing s with
  | nil => exact ⟨[], s.serial, by simp [addObjects], by simp⟩
  | cons e objects ih =>
    have hfold : s.addObjects (e :: objects) = (s.addInterface e.1 e.2).addObjects objects := rfl
    obtain ⟨inits, serial, heq, hi⟩ := ih (s.addInterface e.1 e.2)
    rw [hfold, heq]
    by_cases hknown : e.2 ∈ s.interfaceInfos
    · have hadd : s.addInterface e.1 e.2 =
          { s with inits := s.inits ++ [⟨e.1, e.2, s.serial⟩], serial := s.serial + 1 } :=
        if_pos hknown
      rw [hadd] at hi ⊢
      refine ⟨⟨e.1, e.2, s.serial⟩ :: inits, serial, by simp, fun e' he' hk => ?_⟩
      rcases List.mem_cons.mp he' with rfl | he'
      · exact ⟨_, List.mem_cons_self, rfl⟩
      · obtain ⟨p, hp, hpath⟩ := hi e' he' hk
        exact ⟨p, List.mem_cons_of_mem _ hp, hpath⟩
    · have hadd : s.addInterface e.1 e.2 = s := if_neg hknown
      rw [hadd] at hi ⊢
      refine ⟨inits, serial, rfl, fun e' he' hk => ?_⟩
      rcases List.mem_cons.mp he' with rfl | he'
      · exact absurd hk hknown
      · exact hi e' he' hk

/-! ## The invariant -/

/-- What holds in every state that steps `InStep` lead to. -/
structure Consistent (s : State) : Prop where
  maps : s.Maps
  exported : ∀ {path name p}, s.Stored path name p → s.Exported path name
  covered : s.AllCovered
  unowned : s.owner = none → s.exports = []
  waiting : s.managerProxy ≠ .ready →
    (∀ path, s.objects.get? path = none) ∧ s.inits = [] ∧ s.loads = []
  failed : s.managerProxy = .failed → s.interfaceInfos = []

theorem not_stored_of_get (h : ∀ path, s.objects.get? path = none) : ¬ s.Stored path name p := by
  rintro ⟨object, ho, -⟩
  rw [h path] at ho
  cases ho

theorem allCovered_of_infos (h : s.interfaceInfos = []) : s.AllCovered := by
  intro e _ hknown
  rw [h] at hknown
  cases hknown

theorem Consistent.objects_of_unowned (h : s.Consistent) (ho : s.owner = none) :
    ∀ path, s.objects.get? path = none := by
  intro path
  refine Option.eq_none_iff_forall_ne_some.mpr fun object hobj => ?_
  obtain ⟨name, p, hp⟩ := h.maps.nonempty hobj
  have hexp := (h.exported ⟨object, hobj, hp⟩).1
  rw [h.unowned ho] at hexp
  cases hexp

theorem consistent_new (knownInterfaces : List InterfaceName) :
    (State.new knownInterfaces).Consistent := by
  have hget : ∀ path, (State.new knownInterfaces).objects.get? path = none := fun _ => rfl
  refine ⟨.of_lists (fun _ => List.nodup_nil) (fun name p => ?_) (fun _ _ _ h => ?_)
    (fun path object ho => ?_), fun h => absurd h (not_stored_of_get hget), ?_, fun _ => rfl,
    fun _ => ⟨hget, rfl, rfl⟩, nofun⟩
  · constructor
    · intro hp
      cases hp
    · rintro ⟨path, hs⟩
      exact absurd hs (not_stored_of_get hget)
  · exact absurd h (not_stored_of_get hget)
  · rw [hget] at ho
    cases ho
  · intro e he
    cases he

theorem Consistent.agree (h : s.Consistent) (hq : s.Quiet) : s.Agree := by
  refine ⟨h.maps.indexed, fun path => ⟨fun hp => ?_, ?_⟩⟩
  · obtain ⟨object, ho⟩ := Dict.has_iff.mp hp
    obtain ⟨name, p, hp⟩ := h.maps.nonempty ho
    exact ⟨name, h.exported ⟨object, ho, hp⟩⟩
  · rintro ⟨name, hexp, hknown⟩
    rcases h.covered _ hexp hknown with hp | ⟨p, hp, -⟩ | hl | hm
    · exact hp
    · rw [hq.inits] at hp
      cases hp
    · exact absurd hq.loads hl
    · exact absurd hm hq.managerProxy

/-! ## The steps -/

theorem Consistent.ready (h : s.Consistent) (hinit : s.inits ≠ [] ∨ s.loads ≠ []) :
    s.managerProxy = .ready := by
  by_contra hne
  obtain ⟨-, hi, hl⟩ := h.waiting hne
  exact hinit.elim (fun h => h hi) fun h => h hl

theorem Consistent.initManagerProxy (h : s.Consistent) : s.initManagerProxy.Consistent := by
  unfold State.initManagerProxy
  dsimp only
  split
  · next hinfos =>
    exact ⟨h.maps.congr rfl rfl, h.exported, allCovered_of_infos hinfos, h.unowned,
      fun h' => absurd rfl h', nofun⟩
  · cases ho : s.owner with
    | none =>
      refine ⟨h.maps.congr rfl rfl, h.exported, ?_, fun _ => h.unowned ho,
        fun h' => absurd rfl h', nofun⟩
      intro e he
      rw [h.unowned ho] at he
      cases he
    | some owner =>
      -- the objects are asked for
      refine ⟨h.maps.congr rfl rfl, h.exported, fun e _ _ => .inr (.inr (.inl ?_)), fun ho' => ?_,
        fun h' => absurd rfl h', nofun⟩
      · simp [onNameAppeared]
      · cases ho'

theorem Consistent.addProxy {i : Nat} (h : s.Consistent)
    (hi : s.inits[i]? = some p) (hexp : s.Exported p.objectPath p.interfaceName)
    (hnew : s.getProxy p.objectPath p.interfaceName = none) :
    ((s.endInit i).addProxy p).Consistent := by
  have hmaps : (s.endInit i).Maps := h.maps.congr rfl rfl
  have hready : s.managerProxy = .ready :=
    h.ready (.inl (List.ne_nil_of_mem (List.mem_of_getElem? hi)))
  have hrest := addProxy_rest (s.endInit i) p
  simp only [rest, Prod.mk.injEq] at hrest
  obtain ⟨hinfos, hm, hin, hl, ho, he⟩ := hrest
  refine ⟨hmaps.addProxy hnew, fun hs => ?_, fun e hmem hknown => ?_,
    fun ho' => ?_, fun hne => absurd (hm.trans hready) hne, fun hf => ?_⟩
  · simp only [Exported, he, hinfos]
    rcases (addProxy_stored _ p _ _ _).mp hs with ⟨rfl, rfl, rfl⟩ | ⟨-, hs⟩
    · exact hexp
    · exact h.exported hs
  · rw [he] at hmem
    rw [hinfos] at hknown
    by_cases hpath : e.1 = p.objectPath
    · -- the object of the proxy is present now
      left
      rw [addProxy_objects, Dict.has_iff, hpath]
      exact ⟨_, Dict.get?_set_self _ _ _⟩
    · refine (h.covered e hmem hknown).mono (fun hhas => ?_) (fun q hq hqp => ?_)
        (fun h' => ?_) (fun h' => hm.trans h')
      · rw [addProxy_objects, Dict.has_iff, Dict.get?_set_of_ne _ _ hpath]
        exact Dict.has_iff.mp hhas
      · rw [hin]
        refine List.mem_eraseIdx_iff_getElem?.mpr ?_
        obtain ⟨j, hj⟩ := List.mem_iff_getElem?.mp hq
        refine ⟨j, ?_, hj⟩
        rintro rfl
        rw [hi, Option.some.injEq] at hj
        exact hpath (hj ▸ hqp.symm)
      · rw [hl]
        exact h'
  · rw [he]
    exact h.unowned (ho.symm.trans ho')
  · exact absurd (hf.symm.trans (hm.trans hready)) (by simp)

theorem Consistent.addObjects {i : Nat} (h : s.Consistent)
    (hready : s.managerProxy = .ready) : ((s.endLoad i).addObjects s.exports).Consistent := by
  obtain ⟨inits, serial, heq, hi⟩ := addObjects_spec (s.endLoad i) s.exports
  rw [heq]
  refine ⟨h.maps.congr rfl rfl, h.exported, fun e he hk => ?_, h.unowned,
    fun hne => absurd hready hne, h.failed⟩
  obtain ⟨p, hp, hpath⟩ := hi e he hk
  exact .inr (.inl ⟨p, List.mem_append_right _ hp, hpath⟩)

theorem Consistent.interfacesAdded (h : s.Consistent) (howned : s.owner ≠ none)
    (added : List (ObjectPath × InterfaceName)) :
    ((s.addExports added).onInterfacesAdded added).Consistent := by
  have hexp : ∀ {path name p}, s.Stored path name p → (s.addExports added).Exported path name :=
    fun hs => ⟨List.mem_append_left _ (h.exported hs).1, (h.exported hs).2⟩
  unfold State.onInterfacesAdded
  split
  · next hready =>
    obtain ⟨inits, serial, heq, hi⟩ := addObjects_spec (s.addExports added) added
    rw [heq]
    refine ⟨h.maps.congr rfl rfl, hexp, fun e he hk => ?_, fun ho => absurd ho howned,
      fun hne => absurd hready hne, h.failed⟩
    rcases List.mem_append.mp he with he | he
    · exact (h.covered e he hk).mono (fun h' => h') (fun p hp _ => List.mem_append_left _ hp)
        (fun h' => h') (fun h' => h')
    · obtain ⟨p, hp, hpath⟩ := hi e he hk
      exact .inr (.inl ⟨p, List.mem_append_right _ hp, hpath⟩)
  · next hm =>
    refine ⟨h.maps.congr rfl rfl, hexp, ?_, fun ho => absurd ho howned, h.waiting, h.failed⟩
    -- the manager's proxy is being initialized, or has failed with nothing known
    by_cases hproxy : s.managerProxy = .initializing
    · exact fun e _ _ => .inr (.inr (.inr hproxy))
    · refine allCovered_of_infos (h.failed ?_)
      cases hp : s.managerProxy with
      | initializing => exact absurd hp hproxy
      | ready => exact absurd hp hm
      | failed => rfl

theorem Consistent.interfacesRemoved {names : List InterfaceName}
    (h : s.Consistent) (howned : s.owner ≠ none)
    (hin : (s.removeExports path names).RemovalsInStep path names) :
    ((s.removeExports path names).onInterfacesRemoved path names).Consistent := by
  have hmem : ∀ e, e ∈ (s.removeExports path names).exports ↔
      e ∈ s.exports ∧ ¬ (e.1 = path ∧ e.2 ∈ names) := fun e => by
    simp only [removeExports, List.mem_filter, decide_eq_true_iff]
  have hmaps : (s.removeExports path names).Maps := h.maps.congr rfl rfl
  have hcov : (s.removeExports path names).AllCovered := fun e he hk =>
    (h.covered e ((hmem e).mp he).1 hk).mono (fun h' => h') (fun _ hp _ => hp) (fun h' => h')
      (fun h' => h')
  unfold State.onInterfacesRemoved
  split
  · next hready =>
    obtain ⟨hm, hc, hr, hst⟩ := removals_spec hmaps hcov hin
    simp only [rest, Prod.mk.injEq] at hr
    obtain ⟨hinfos, hmp, -, -, ho, he⟩ := hr
    refine ⟨hm, fun hs => ?_, hc, fun ho' => absurd (ho.symm.trans ho') howned,
      fun hne => absurd (hmp.trans hready) hne, fun hf => ?_⟩
    · obtain ⟨hs, hne⟩ := (hst _ _ _).mp hs
      obtain ⟨hx, hk⟩ := h.exported hs
      refine ⟨?_, ?_⟩
      · rw [he]
        exact (hmem _).mpr ⟨hx, hne⟩
      · rw [hinfos]
        exact hk
    · exact absurd (hf.symm.trans (hmp.trans hready)) (by simp)
  · next hm =>
    exact ⟨hmaps, fun hs => absurd hs (not_stored_of_get (h.waiting hm).1), hcov,
      fun ho => absurd ho howned, h.waiting, h.failed⟩

theorem Consistent.nameAppeared (h : s.Consistent) (howned : s.owner = none)
    (exports : List (ObjectPath × InterfaceName)) :
    (s.setOwner exports).onNameOwner.Consistent := by
  have hobj := h.objects_of_unowned howned
  have hmaps : (s.setOwner exports).Maps := h.maps.congr rfl rfl
  unfold State.onNameOwner
  split
  · next hw =>
    -- the objects of the new owner are asked for
    simp only [watchesName, decide_eq_true_eq] at hw
    refine ⟨hmaps.congr rfl rfl, fun hs => absurd hs (not_stored_of_get hobj),
      fun e _ _ => .inr (.inr (.inl ?_)), nofun, fun hne => absurd hw.1 hne, h.failed⟩
    simp [setOwner, onNameAppeared]
  · next hw =>
    simp only [watchesName, decide_eq_true_eq] at hw
    refine ⟨hmaps, fun hs => absurd hs (not_stored_of_get hobj), ?_, nofun, h.waiting, h.failed⟩
    by_cases hproxy : s.managerProxy = .initializing
    · exact fun e _ _ => .inr (.inr (.inr hproxy))
    · refine allCovered_of_infos ?_
      cases hp : s.managerProxy with
      | initializing => exact absurd hp hproxy
      | ready => exact by_contra fun hne => hw ⟨hp, hne⟩
      | failed => exact h.failed hp

theorem Consistent.nameVanished (h : s.Consistent) : s.loseOwner.onNameOwner.Consistent := by
  have hmaps : s.loseOwner.Maps := h.maps.congr rfl rfl
  unfold State.onNameOwner
  split
  · obtain ⟨hm, hr, hobj⟩ := onNameVanished_spec hmaps rfl
    simp only [rest, Prod.mk.injEq] at hr
    obtain ⟨hinfos, hmp, hi, hl, -, he⟩ := hr
    have hcov : s.loseOwner.onNameVanished.AllCovered := fun e hmem => by
      rw [he] at hmem
      cases hmem
    refine ⟨hm, fun hs => absurd hs (not_stored_of_get hobj), hcov, fun _ => he, fun hne => ?_,
      fun hf => ?_⟩
    · obtain ⟨-, hi', hl'⟩ := h.waiting fun hp => hne (hmp.trans hp)
      exact ⟨hobj, hi.trans hi', hl.trans hl'⟩
    · exact hinfos.trans (h.failed (hmp.symm.trans hf))
  · next hw =>
    simp only [watchesName, decide_eq_true_eq] at hw
    -- nothing is stored: the manager is not ready, or knows no interface
    have hobj : ∀ path name p, ¬ s.Stored path name p := fun path name p hs => by
      by_cases hready : s.managerProxy = .ready
      · have hinfos : s.interfaceInfos = [] := by_contra fun hne => hw ⟨hready, hne⟩
        have hknown := (h.exported hs).2
        rw [hinfos] at hknown
        cases hknown
      · exact not_stored_of_get (h.waiting hready).1 hs
    refine ⟨hmaps, fun hs => absurd hs (hobj _ _ _), fun e hmem => ?_, fun _ => rfl, h.waiting,
      h.failed⟩
    cases hmem

end State

/-- **The step lemma.** -/
theorem consistent_step {s s' : State} {e : Event} (h : s.Consistent) (hin : InStep s e)
    (hstep : step s e = some s') : s'.Consistent := by
  cases e with
  | managerInit ok =>
    simp only [step, Option.ite_none_right_eq_some, Option.some.injEq] at hstep
    obtain ⟨hm, rfl⟩ := hstep
    cases ok with
    | true => exact h.initManagerProxy
    | false =>
      have hinfos : s.interfaceInfos = [] := hin.resolve_left Bool.false_ne_true
      obtain ⟨hobj, hi, hl⟩ := h.waiting (by simp [hm])
      exact ⟨h.maps.congr rfl rfl, h.exported, allCovered_of_infos hinfos, h.unowned,
        fun _ => ⟨hobj, hi, hl⟩, fun _ => hinfos⟩
  | initDone i ok =>
    simp only [step, InStep] at hstep hin
    cases hi : s.inits[i]? with
    | none => simp [hi] at hstep
    | some p =>
      simp only [hi, Option.some.injEq] at hstep hin
      subst hstep
      cases ok with
      | true => exact h.addProxy hi hin.1 hin.2
      | false =>
        have hready := h.ready (.inl (List.ne_nil_of_mem (List.mem_of_getElem? hi)))
        exact ⟨h.maps.congr rfl rfl, h.exported, hin, h.unowned, fun hne => absurd hready hne,
          h.failed⟩
  | loadDone i ok =>
    simp only [step, InStep] at hstep hin
    cases hi : s.loads[i]? with
    | none => simp [hi] at hstep
    | some owner =>
      have hready := h.ready (.inr (List.ne_nil_of_mem (List.mem_of_getElem? hi)))
      cases ok with
      | true =>
        simp only [hi, if_true, Option.ite_none_right_eq_some, Option.some.injEq] at hstep
        obtain ⟨-, rfl⟩ := hstep
        exact h.addObjects hready
      | false =>
        simp only [hi, Bool.false_eq_true, if_false, Option.some.injEq] at hstep
        subst hstep
        exact ⟨h.maps.congr rfl rfl, h.exported, hin.resolve_left Bool.false_ne_true, h.unowned,
          fun hne => absurd hready hne, h.failed⟩
  | interfacesAdded path names =>
    simp only [step, Option.ite_none_left_eq_some, Option.some.injEq] at hstep
    obtain ⟨ho, rfl⟩ := hstep
    exact h.interfacesAdded ho _
  | interfacesRemoved path names =>
    simp only [step, Option.ite_none_left_eq_some, Option.some.injEq] at hstep
    obtain ⟨ho, rfl⟩ := hstep
    exact h.interfacesRemoved ho hin
  | nameAppeared exports =>
    simp only [step, Option.ite_none_right_eq_some, Option.some.injEq] at hstep
    obtain ⟨ho, rfl⟩ := hstep
    exact h.nameAppeared ho exports
  | nameVanished =>
    simp only [step, Option.ite_none_left_eq_some, Option.some.injEq] at hstep
    obtain ⟨-, rfl⟩ := hstep
    exact h.nameVanished

theorem consistent_of_reach {knownInterfaces : List InterfaceName} {s : State}
    (hreach : Runs.Reach step InStep (State.new knownInterfaces) s) : s.Consistent :=
  hreach.invariant (consistent_new knownInterfaces) fun _ _ _ => consistent_step

/-- **The maps and the exports.** In a run of steps `InStep`, whenever nothing is being
initialized, `_interfaces` lists each stored proxy once and nothing else, and the objects are
those on which the remote exports a known interface. -/
theorem agree_of_reach {knownInterfaces : List InterfaceName} {s : State}
    (hreach : Runs.Reach step InStep (State.new knownInterfaces) s) (hquiet : s.Quiet) : s.Agree :=
  (consistent_of_reach hreach).agree hquiet

def addAndRemove : List Event :=
  [.nameAppeared [("/a", "Known"), ("/a", "Other")], .managerInit true, .loadDone 0 true,
    .initDone 0 true, .interfacesAdded "/b" ["Known"], .initDone 0 true,
    .interfacesRemoved "/a" ["Known", "Other"]]

theorem agree_add_and_remove :
    ∃ s, Runs.run step (State.new ["Known"]) addAndRemove = some s ∧ s.Agree := by
  have hin : Runs.Allowed step InStep (State.new ["Known"]) addAndRemove := by decide
  exact ⟨_, rfl, agree_of_reach (Runs.Reach.of_run addAndRemove hin rfl) ⟨by decide, rfl, rfl⟩⟩

/-- The removal of the unknown interface of an object takes the object away, although its known
interface is still exported. -/
theorem not_agree_after_unknown_removed : ¬ ∀ knownInterfaces s,
    Runs.Reachable step (State.new knownInterfaces) s → s.Quiet → s.Agree := by
  intro h
  have hagree := h ["Known"] _ (Runs.Reachable.of_run
    [.nameAppeared [("/a", "Known"), ("/a", "Other")], .managerInit true, .loadDone 0 true,
      .initDone 0 true, .interfacesRemoved "/a" ["Other"]] rfl) ⟨by decide, rfl, rfl⟩
  have hhas := (hagree.present "/a").mpr ⟨"Known", by decide⟩
  revert hhas
  decide

end ObjectManager
