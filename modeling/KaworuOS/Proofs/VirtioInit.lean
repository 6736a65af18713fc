import KaworuOS.Virtio
import Mathlib.Data.List.Nodup

/-!
# Which virtio devices are probed

`virtio_init` asks for the device with the next index among those of class `DEVICE_VIRTIO_MMIO_DEVICE`. A probe that
recognises its device takes it out of this class, and the device behind it moves to an index that is not asked for
again.
-/

namespace KaworuOS.Proofs
open Lib

/-- The devices of class `DEVICE_VIRTIO_MMIO_DEVICE`, in list order. -/
def virtioDevices (m : DriverManager) : List Nat :=
  m.deviceList.filter fun d => (m.device d).cls = .virtioMmioDevice

lemma virtioDevices_nodup (m : DriverManager) : (virtioDevices m).Nodup := m.nodup.filter _

/-- The type that `virtio_mmio_probe` recognises a device as when it comes to set the class. -/
def recognised (claimed : VirtDeviceId → Bool) (dev : ManagedDevice) : Option VirtDeviceId :=
  match dev.driver with
  | .virtioMmio transport =>
    if dev.state ≠ .ready ∧ transport.hasReg ∧ transport.mapped ∧
        getDeviceId transport.deviceId ≠ .unknown ∧ claimed (getDeviceId transport.deviceId) = false then
      some (getDeviceId transport.deviceId)
    else none
  | .other _ _ => none

/-- The devices that `virtio_init` still gets ready, of those it has not come to yet. -/
def visits (device : Nat → ManagedDevice) : (VirtDeviceId → Bool) → List Nat → List Nat
  | _, [] => []
  | _, [d] => [d]
  | claimed, d :: e :: rest =>
    match recognised claimed (device d) with
    | none => d :: visits device claimed (e :: rest)
    | some id => d :: visits device (Function.update claimed id true) rest

section Visits

variable {device : Nat → ManagedDevice} {claimed : VirtDeviceId → Bool}

lemma visits_cons_none {d : Nat} (h : recognised claimed (device d) = none) (rest : List Nat) :
    visits device claimed (d :: rest) = d :: visits device claimed rest := by
  cases rest with
  | nil => rfl
  | cons e rest => simp only [visits, h]

/-- The device behind a recognised one is left out. -/
lemma visits_cons_some {d : Nat} {id : VirtDeviceId} (h : recognised claimed (device d) = some id) (rest : List Nat) :
    visits device claimed (d :: rest) = d :: visits device (Function.update claimed id true) rest.tail := by
  cases rest with
  | nil => rfl
  | cons e rest => simp only [visits, h, List.tail_cons]

lemma visits_sublist (l : List Nat) : (visits device claimed l).Sublist l := by
  induction claimed, l using visits.induct device with
  | case1 => exact .slnil
  | case2 _ d => exact .refl _
  | case3 claimed d e rest h ih =>
    rw [visits_cons_none h]
    exact ih.cons_cons d
  | case4 claimed d e rest id h ih =>
    rw [visits_cons_some h]
    exact (ih.cons e).cons_cons d

lemma visits_congr {device' : Nat → ManagedDevice} {l : List Nat} (h : ∀ d ∈ l, device' d = device d) :
    visits device' claimed l = visits device claimed l := by
  induction claimed, l using visits.induct device with
  | case1 => rfl
  | case2 _ d => rfl
  | case3 claimed d e rest hd ih =>
    have hd' : recognised claimed (device' d) = none := by rw [h d List.mem_cons_self, hd]
    rw [visits_cons_none hd, visits_cons_none hd', ih fun x hx => h x (List.mem_cons_of_mem _ hx)]
  | case4 claimed d e rest id hd ih =>
    have hd' : recognised claimed (device' d) = some id := by rw [h d List.mem_cons_self, hd]
    rw [visits_cons_some hd, visits_cons_some hd', List.tail_cons,
      ih fun x hx => h x (List.mem_cons_of_mem _ (List.mem_cons_of_mem _ hx))]

/-- Every device is visited once exactly when no device with another one behind it is recognised. -/
lemma visits_count_iff {l : List Nat} (hnodup : l.Nodup) :
    (∀ d ∈ l, (visits device claimed l).count d = 1) ↔
      ∀ d ∈ l.dropLast, recognised claimed (device d) = none := by
  induction claimed, l using visits.induct device with
  | case1 => simp
  | case2 _ d => simp [visits]
  | case3 claimed d e rest h ih =>
    obtain ⟨hd, hrest⟩ := List.nodup_cons.mp hnodup
    have hfresh : (visits device claimed (e :: rest)).count d = 0 :=
      List.count_eq_zero.mpr fun hmem => hd ((visits_sublist _).subset hmem)
    have hother : ∀ x ∈ e :: rest,
        (d :: visits device claimed (e :: rest)).count x = (visits device claimed (e :: rest)).count x := by
      intro x hx
      refine List.count_cons_of_ne ?_
      rintro rfl
      exact hd hx
    rw [visits_cons_none h, List.dropLast_cons_cons, List.forall_mem_cons,
      List.forall_mem_cons (l := List.dropLast _), ← ih hrest, List.count_cons_self, hfresh]
    constructor
    · rintro ⟨-, hall⟩
      exact ⟨h, fun x hx => by rw [← hother x hx, hall x hx]⟩
    · rintro ⟨-, hall⟩
      exact ⟨rfl, fun x hx => by rw [hother x hx, hall x hx]⟩
  | case4 claimed d e rest id h ih =>
    obtain ⟨hd, hrest⟩ := List.nodup_cons.mp hnodup
    constructor
    · intro hall
      -- `e` is left out
      have he : e ∈ visits device claimed (d :: e :: rest) :=
        List.count_pos_iff.mp (by rw [hall e (List.mem_cons_of_mem _ List.mem_cons_self)]; exact Nat.one_pos)
      rw [visits_cons_some h, List.tail_cons] at he
      rcases List.mem_cons.mp he with hed | he
      · exact absurd (hed ▸ List.mem_cons_self) hd
      · exact absurd ((visits_sublist _).subset he) (List.nodup_cons.mp hrest).1
    · intro hall
      have hnone := hall d (by simp)
      rw [h] at hnone
      cases hnone

end Visits

/-- `dmanager_get_by_class_skip` gives the device with this index among those of the class. -/
lemma getByClassLoop_eq (device : Nat → ManagedDevice) (cls : DeviceClass) (k : Nat) (l : List Nat) (count : Nat) :
    getByClassLoop device cls (count + k) l count =
      match (l.filter fun d => (device d).cls = cls)[k]? with
      | some d => .ok d
      | none => .error .ENOENT := by
  induction l generalizing count k with
  | nil => rfl
  | cons curr rest ih =>
    by_cases hcls : (device curr).cls = cls
    · simp only [getByClassLoop, hcls, if_true, List.filter_cons, decide_true]
      cases k with
      | zero => simp
      | succ k =>
        rw [if_neg (by omega), show count + (k + 1) = count + 1 + k by omega, ih, List.getElem?_cons_succ]
    · simp only [getByClassLoop, hcls, if_false, List.filter_cons, decide_false, Bool.false_eq_true]
      exact ih k count

lemma dmanagerGetByClassSkip_eq (m : DriverManager) (skip : Nat) :
    dmanagerGetByClassSkip m .virtioMmioDevice skip =
      match (virtioDevices m)[skip]? with
      | some d => .ok d
      | none => .error .ENOENT := by
  have h := getByClassLoop_eq m.device .virtioMmioDevice skip m.deviceList 0
  rwa [Nat.zero_add] at h

/-- What a call of the driver of `d` does to the driver manager. -/
structure Probed (m m' : DriverManager) (d : Nat) : Prop where
  deviceList : m'.deviceList = m.deviceList
  readied : m'.readied = m.readied
  other : ∀ e, e ≠ d → m'.device e = m.device e
  unrecognised : recognised m.claimed (m.device d) = none →
    m'.claimed = m.claimed ∧ (m'.device d).cls = (m.device d).cls
  recognised : ∀ id, recognised m.claimed (m.device d) = some id →
    m'.claimed = Function.update m.claimed id true ∧ (m'.device d).cls ≠ .virtioMmioDevice

lemma Probed.refl {m : DriverManager} {d : Nat} (h : Proofs.recognised m.claimed (m.device d) = none) :
    Probed m m d where
  deviceList := rfl
  readied := rfl
  other _ _ := rfl
  unrecognised _ := ⟨rfl, rfl⟩
  recognised id hid := by simp [h] at hid

lemma Probed.setState {m m' : DriverManager} {d : Nat} (h : Probed m m' d) (state : DeviceState) :
    Probed m (m'.setState d state) d where
  deviceList := h.deviceList
  readied := h.readied
  other e he := (Function.update_of_ne he _ _).trans (h.other e he)
  unrecognised hnone := by simpa [DriverManager.setState] using h.unrecognised hnone
  recognised id hid := by simpa [DriverManager.setState] using h.recognised id hid

/-- No type of virtio device has the class of the transport. -/
lemma deviceIdToDeviceClass_ne (id : VirtDeviceId) : deviceIdToDeviceClass id ≠ .virtioMmioDevice := by
  cases id <;> decide

lemma Probed.setIndex {m m' : DriverManager} {d : Nat} (h : Probed m m' d) (index : Nat) :
    Probed m { m' with virtioDevicesIndex := index } d where
  deviceList := h.deviceList
  readied := h.readied
  other := h.other
  unrecognised := h.unrecognised
  recognised := h.recognised

lemma virtioMmioProbe_spec {m : DriverManager} {d : Nat} {transport : VirtioTransport}
    (hstate : (m.device d).state ≠ .ready) (hdriver : (m.device d).driver = .virtioMmio transport) :
    Probed m (virtioMmioProbe m d transport).2 d := by
  unfold virtioMmioProbe
  dsimp only
  have heq : recognised m.claimed (m.device d) = if transport.hasReg ∧ transport.mapped ∧
      getDeviceId transport.deviceId ≠ .unknown ∧ m.claimed (getDeviceId transport.deviceId) = false then
        some (getDeviceId transport.deviceId) else none := by
    simp [recognised, hdriver, hstate]
  split_ifs with hreg hmap hid hclaimed
  · exact .refl (heq.trans (if_neg (by simp_all)))
  · exact .refl (heq.trans (if_neg (by simp_all)))
  · exact .refl (heq.trans (if_neg (by simp_all)))
  · exact .refl (heq.trans (if_neg (by simp_all)))
  -- the probe claims the type and sets the class, whatever the driver of this type returns
  have hsome : recognised m.claimed (m.device d) = some (getDeviceId transport.deviceId) :=
    heq.trans (if_pos (by simp_all))
  let claims := { m with claimed := Function.update m.claimed (getDeviceId transport.deviceId) true }
  have hset : Probed m (claims.setClass d (deviceIdToDeviceClass (getDeviceId transport.deviceId))) d :=
    { deviceList := rfl
      readied := rfl
      other := fun e he => Function.update_of_ne he _ _
      unrecognised := fun hnone => by simp [hsome] at hnone
      recognised := fun id hid => by
        obtain rfl := Option.some.inj (hsome.symm.trans hid)
        refine ⟨rfl, ?_⟩
        simp only [DriverManager.setClass, Function.update_self]
        exact deviceIdToDeviceClass_ne _ }
  split
  · exact hset.setIndex _
  · exact hset

lemma Driver.probe_spec {m : DriverManager} {d : Nat} (hstate : (m.device d).state ≠ .ready) :
    Probed m ((m.device d).driver.probe m d).2 d := by
  cases hdriver : (m.device d).driver with
  | virtioMmio transport => exact virtioMmioProbe_spec hstate hdriver
  | other cls errno => exact .refl (by simp [recognised, hdriver])

lemma recognised_of_ready {claimed : VirtDeviceId → Bool} {dev : ManagedDevice} (h : dev.state = .ready) :
    recognised claimed dev = none := by
  unfold recognised
  split
  · simp [h]
  · rfl

lemma recognised_of_driver {claimed : VirtDeviceId → Bool} {dev : ManagedDevice}
    (h : dev.driver.deviceClass ≠ .virtioMmioDevice) : recognised claimed dev = none := by
  unfold recognised
  split
  next transport hdriver => simp [hdriver, Driver.deviceClass] at h
  · rfl

/-- Apart from the entry for the call, `dmanager_ready_device` does what the probe does. -/
lemma dmanagerReadyDevice_spec (m : DriverManager) (d : Nat) :
    Probed { m with readied := m.readied ++ [d] } (dmanagerReadyDevice m d).2 d := by
  unfold dmanagerReadyDevice
  dsimp only
  split_ifs with hstate hcls hret
  · exact .refl (recognised_of_ready hstate)
  · exact .refl (recognised_of_driver (by simp [hcls]))
  · have hprobe := Driver.probe_spec (m := { m with readied := m.readied ++ [d] }) (d := d) hstate
    exact hprobe.setState .ready
  · exact Driver.probe_spec (m := { m with readied := m.readied ++ [d] }) (d := d) hstate

/-- A device that is not recognised keeps its class. -/
lemma virtioDevices_of_unrecognised {m m' : DriverManager} {d : Nat} (h : Probed m m' d)
    (hrec : recognised m.claimed (m.device d) = none) : virtioDevices m' = virtioDevices m := by
  unfold virtioDevices
  rw [h.deviceList]
  refine List.filter_congr fun e _ => ?_
  by_cases hed : e = d
  · subst hed
    rw [(h.unrecognised hrec).2]
  · rw [h.other e hed]

/-- A device that is recognised leaves the class. -/
lemma virtioDevices_of_recognised {m m' : DriverManager} {d : Nat} {id : VirtDeviceId} (h : Probed m m' d)
    (hrec : recognised m.claimed (m.device d) = some id) :
    virtioDevices m' = (virtioDevices m).filter (· ≠ d) := by
  unfold virtioDevices
  rw [h.deviceList, List.filter_filter]
  refine List.filter_congr fun e _ => ?_
  by_cases hed : e = d
  · subst hed
    simp [(h.recognised id hrec).2]
  · rw [h.other e hed]
    simp [hed]

/-- What is left of the virtio devices, from the next index on. -/
lemma virtioDevices_drop_of_ready {m m' : DriverManager} {d count : Nat} {rest : List Nat}
    (h : Probed { m with readied := m.readied ++ [d] } m' d) (hdrop : (virtioDevices m).drop count = d :: rest) :
    (virtioDevices m').drop (count + 1) =
      if recognised m.claimed (m.device d) = none then rest else rest.tail := by
  cases hrec : recognised m.claimed (m.device d) with
  | none =>
    have hsame : virtioDevices m' = virtioDevices m :=
      virtioDevices_of_unrecognised (m := { m with readied := m.readied ++ [d] }) h hrec
    rw [hsame, if_pos rfl, ← List.drop_drop, hdrop, List.drop_one, List.tail_cons]
  | some id =>
    have hlen : ((virtioDevices m).take count).length = count := by
      have hlt : count < (virtioDevices m).length := by
        by_contra hge
        rw [List.drop_eq_nil_of_le (Nat.not_lt.mp hge)] at hdrop
        cases hdrop
      rw [List.length_take, Nat.min_eq_left hlt.le]
    have hsplit : virtioDevices m = (virtioDevices m).take count ++ d :: rest := by
      rw [← hdrop, List.take_append_drop]
    have hnodup := virtioDevices_nodup m
    rw [hsplit] at hnodup
    have hpre : ∀ x ∈ (virtioDevices m).take count, decide (x ≠ d) = true := by
      intro x hx
      refine decide_eq_true ?_
      rintro rfl
      exact List.disjoint_of_nodup_append hnodup hx List.mem_cons_self
    have hpost : ∀ x ∈ rest, decide (x ≠ d) = true := by
      intro x hx
      refine decide_eq_true ?_
      rintro rfl
      exact (List.nodup_cons.mp (List.nodup_append.mp hnodup).2.1).1 hx
    -- the devices behind `d` move up by one
    have hfilter : virtioDevices m' = (virtioDevices m).take count ++ rest := by
      have herase : virtioDevices m' = (virtioDevices m).filter (· ≠ d) :=
        virtioDevices_of_recognised (m := { m with readied := m.readied ++ [d] }) h hrec
      rw [herase]
      conv_lhs => rw [hsplit]
      rw [List.filter_append, List.filter_cons_of_neg (by simp), List.filter_eq_self.mpr hpre,
        List.filter_eq_self.mpr hpost]
    rw [hfilter, if_neg (by simp), ← List.drop_drop, List.drop_left' hlen, List.drop_one]

/-- Of the devices that are left the loop gets those in `visits` ready, in this order, and it returns. -/
lemma virtioInitLoop_visits {fuel count : Nat} {m : DriverManager}
    (hfuel : ((virtioDevices m).drop count).length < fuel) :
    ∃ m', virtioInitLoop fuel count m = .ok m' ∧
      m'.readied = m.readied ++ visits m.device m.claimed ((virtioDevices m).drop count) := by
  induction fuel generalizing count m with
  | zero => exact absurd hfuel (Nat.not_lt_zero _)
  | succ fuel ih =>
    cases hdrop : (virtioDevices m).drop count with
    | nil =>
      have hget : (virtioDevices m)[count]? = none :=
        List.getElem?_eq_none (List.drop_eq_nil_iff.mp hdrop)
      refine ⟨m, ?_, by simp [visits]⟩
      simp only [virtioInitLoop, dmanagerGetByClassSkip_eq, hget]
    | cons d rest =>
      have hget : (virtioDevices m)[count]? = some d := by
        rw [← List.head?_drop, hdrop, List.head?_cons]
      have hready := dmanagerReadyDevice_spec m d
      have hleft := virtioDevices_drop_of_ready hready hdrop
      have hnodup : (d :: rest).Nodup := hdrop ▸ (virtioDevices_nodup m).sublist (List.drop_sublist _ _)
      have hsame : ∀ e ∈ rest, (dmanagerReadyDevice m d).2.device e = m.device e := fun e he =>
        hready.other e fun hed => (List.nodup_cons.mp hnodup).1 (hed ▸ he)
      rw [hdrop, List.length_cons] at hfuel
      cases hrec : recognised m.claimed (m.device d) with
      | none =>
        rw [if_pos hrec] at hleft
        obtain ⟨m', hm', hvisits⟩ := @ih (count + 1) (dmanagerReadyDevice m d).2
          (by rw [hleft]; omega)
        refine ⟨m', ?_, ?_⟩
        · simpa only [virtioInitLoop, dmanagerGetByClassSkip_eq, hget] using hm'
        · rw [hvisits, hleft, hready.readied, (hready.unrecognised hrec).1, visits_congr hsame,
            visits_cons_none hrec, List.append_assoc, List.singleton_append]
      | some id =>
        rw [if_neg (by simp [hrec])] at hleft
        obtain ⟨m', hm', hvisits⟩ := @ih (count + 1) (dmanagerReadyDevice m d).2
          (by rw [hleft, List.length_tail]; omega)
        refine ⟨m', ?_, ?_⟩
        · simpa only [virtioInitLoop, dmanagerGetByClassSkip_eq, hget] using hm'
        · rw [hvisits, hleft, hready.readied, (hready.recognised id hrec).1,
            visits_congr fun e he => hsame e (List.mem_of_mem_tail he), visits_cons_some hrec,
            List.append_assoc, List.singleton_append]

/-- `virtio_init` gets every virtio device ready exactly once if and only if none of them but the last one is
recognised. -/
theorem virtio_init_probes_all_iff (m : DriverManager) (hstart : m.readied = []) :
    (∃ m', virtioInit m = .ok m' ∧ ∀ d ∈ virtioDevices m, m'.readied.count d = 1) ↔
      ∀ d ∈ (virtioDevices m).dropLast, recognised m.claimed (m.device d) = none := by
  have hfuel : ((virtioDevices m).drop 0).length < m.deviceList.length + 1 :=
    Nat.lt_succ_of_le (List.length_filter_le _ _)
  obtain ⟨m', hm', hvisits⟩ := virtioInitLoop_visits hfuel
  rw [hstart, List.nil_append, List.drop_zero] at hvisits
  rw [← visits_count_iff (virtioDevices_nodup m), ← hvisits]
  constructor
  · rintro ⟨m'', hm'', hall⟩
    obtain rfl := Except.ok.inj (hm''.symm.trans hm')
    exact hall
  · exact fun hall => ⟨m', hm', hall⟩

/-- Two transports that report a block device, as they do where several nodes have the same backing. -/
def twoBlocks : DriverManager where
  deviceList := [1, 2]
  nodup := by decide
  device _ := ⟨.virtioMmioDevice, .discovered, .virtioMmio ⟨true, true, 2, .EOK⟩⟩
  claimed _ := false
  virtioDevicesIndex := 0
  readied := []

/-- No block device is claimed before, so the second transport is never probed. -/
theorem virtio_init_skips :
    ¬ ∃ m', virtioInit twoBlocks = .ok m' ∧ ∀ d ∈ virtioDevices twoBlocks, m'.readied.count d = 1 := by
  have hrun : (virtioInit twoBlocks).map DriverManager.readied = .ok [1] := by rfl
  rintro ⟨m', hm', hall⟩
  rw [hm'] at hrun
  have hreadied : m'.readied = [1] := Except.ok.inj hrun
  have htwo := hall 2 (by decide)
  rw [hreadied] at htwo
  exact absurd htwo (by decide)

/-- A transport without a device behind it in front of a block device. -/
def emptyBeforeBlock : DriverManager :=
  { twoBlocks with
    device := fun d =>
      ⟨.virtioMmioDevice, .discovered, .virtioMmio ⟨true, true, if d = 1 then 0 else 2, .EOK⟩⟩ }

theorem virtio_init_probes_all_iff_empty :
    emptyBeforeBlock.readied = [] ∧
      ∃ m', virtioInit emptyBeforeBlock = .ok m' ∧
        ∀ d ∈ virtioDevices emptyBeforeBlock, m'.readied.count d = 1 :=
  ⟨rfl, (virtio_init_probes_all_iff emptyBeforeBlock rfl).mpr (by decide)⟩

end KaworuOS.Proofs
