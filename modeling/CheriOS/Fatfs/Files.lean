import CheriOS.Fatfs.Close
/-!
# Files — calls of several files, one after the other (`ff.c`)

File objects share the volume and its window, and each has a buffer.  However the calls of the files come, every file is the
string of bytes that its callers know, and what belongs to none of them is left alone.
-/
namespace CheriOS
namespace Fatfs

open Outcome Chain

variable {D : Disk} {W U : Set Nat} {v v' : Vol D} {s s' : Chains D} {g : Geometry} {l : List Nat} {i j k n p x size : Nat}
  {E : Nat → Fin 512 → Prop} {fp fp' : Fil} {f f' : File} {data : Nat → Option (BitVec 8)} {own own' : Nat → List Nat}

/-- The file objects and the volume. -/
structure Files (D : Disk) where
  fil : Nat → Fil
  vol : Vol D

def Files.set (t : Files D) (i : Nat) (fp : Fil) (v : Vol D) : Files D := ⟨Function.update t.fil i fp, v⟩

/-- What a program calls; where no bytes are read, the reply has none. -/
def request : Request → Files D → Except Halt (Reply (BitVec 8) × Files D)
  | .read i buff btr, t => do
    let (res, buff, br, fp, v) ← fRead t.vol (t.fil i) buff btr
    return (⟨res, br.toNat, buff⟩, t.set i fp v)
  | .write i buff btw, t => do
    let (res, bw, fp, v) ← fWrite t.vol (t.fil i) buff btw
    return (.bare res bw.toNat, t.set i fp v)
  | .lseek i ofs, t => do
    let (res, fp, v) ← fLseek t.vol (t.fil i) ofs
    return (.bare res 0, t.set i fp v)
  | .truncate i, t => do
    let (res, fp, v) ← fTruncate t.vol (t.fil i)
    return (.bare res 0, t.set i fp v)
  | .sync i, t => do
    let (res, fp, v) ← fSync t.vol (t.fil i)
    return (.bare res 0, t.set i fp v)
  | .close i, t => do
    let (res, fp, v) ← fClose t.vol (t.fil i)
    return (.bare res 0, t.set i fp v)

/-! ## What is held of each file -/

/-- **Nothing of the file is held back in its object**, and its entry tells of it. -/
structure Saved (v : Vol D) (l : List Nat) (fp : Fil) (f : File) : Prop where
  clean : fp.line.dirty = false
  recorded : Recorded v.fs l f.size fp.dirPtr (v.look fp.dirSect.toNat)

/-- **What is held of a file object**: it is open, or it was closed. -/
inductive Slot (v : Vol D) (l : List Nat) (fp : Fil) (f : File) : Prop where
  | opened : Opened v l fp f → (fp.flag &&& faModified = 0 → Saved v l fp f) → Slot v l fp f
  | closed : fp.obj.fs = false → f.opened = false → Cached v l fp f.data →
      (∀ x, l.length * v.fs.unit ≤ x → f.data x = none) → Saved v l fp f → Slot v l fp f

/-- The place of its entry. -/
def Fil.entry (fp : Fil) : Nat → Fin 512 → Prop := EntryAt fp.dirSect.toNat fp.dirPtr

/-- **The files `U` are held**, and the others are not in use. -/
structure Held (U W : Set Nat) (own : Nat → List Nat) (t : Files D) (sp : Space) : Prop where
  good : Good W ⟨own, t.vol⟩
  free : sp.free = t.vol.freeClusters
  placed : ∀ i ∈ U, Placed W t.vol.fs.toGeometry (t.fil i).dirSect.toNat (t.fil i).dirPtr
  apart : ∀ i ∈ U, ∀ j ∈ U, j ≠ i → ∀ x m, (t.fil j).entry x m → ¬ (t.fil i).entry x m
  slot : ∀ i ∈ U, Slot t.vol (own i) (t.fil i) (sp.file i)
  idle : ∀ i, i ∉ U → (t.fil i).obj.fs = false ∧ (sp.file i).opened = false

theorem Recorded.congr {fs : FatFs} {a b : Sector} (h : Recorded fs l size p a) (hp : p + 32 ≤ 512)
    (hab : ∀ m : Fin 512, p ≤ m → (m : Nat) < p + 32 → b m = a m) : Recorded fs l size p b := by
  have hbytes : ∀ m, p ≤ m ∧ m < p + 32 → bytesOf b m = bytesOf a m := by
    intro m hm
    have hlt : m < 512 := by omega
    unfold bytesOf
    rw [dif_pos hlt, dif_pos hlt]
    exact hab ⟨m, hlt⟩ hm.1 hm.2
  refine ⟨?_, ?_⟩
  · rw [ldClust_congr (fun m hm => hbytes _ (by omega)) (fun m hm => hbytes _ (by omega))]
    exact h.clust
  · rw [ldDword_congr (fun m hm => hbytes _ (by omega))]
    exact h.size

theorem Placed.range {g : Geometry} (h : Placed W g x p) : p + 32 ≤ 512 := by
  have := h.aligned
  have := h.within
  omega

/-- An entry that a call does not write to tells the same. -/
theorem Saved.moved (h : Saved s.vol l fp f) (hm : Moves W E i s s')
    (hp : Placed W s.vol.fs.toGeometry fp.dirSect.toNat fp.dirPtr) (hE : ∀ x m, fp.entry x m → ¬ E x m)
    (hs : fp'.dirSect = fp.dirSect) (hd : fp'.dirPtr = fp.dirPtr) (hclean : fp'.line.dirty = false)
    (hsize : f'.size = f.size) : Saved s'.vol l fp' f' := by
  refine ⟨hclean, ?_⟩
  rw [hs, hd, hsize]
  refine (h.recorded.congr hp.range fun m h1 h2 => ?_).of_type (congrArg Geometry.fsType hm.geometry)
  exact hm.look _ hp.window hp.notFat hp.notInfo m (hE _ m ⟨rfl, h1, h2⟩)

/-- **A file is what it was**, whatever is done for another. -/
theorem Slot.other (h : Good W s) (hs : Slot s.vol (s.own j) fp f) (hm : Moves W E i s s') (hj : j ≠ i)
    (hp : Placed W s.vol.fs.toGeometry fp.dirSect.toNat fp.dirPtr) (hE : ∀ x m, fp.entry x m → ¬ E x m) :
    Slot s'.vol (s'.own j) fp f := by
  cases hs with
  | opened ho hsaved =>
    refine .opened (ho.other h hm hj) fun hmod => ?_
    rw [hm.others j hj]
    exact (hsaved hmod).moved hm hp hE rfl rfl (hsaved hmod).clean rfl
  | closed hfs hopen hc hroom hsaved =>
    refine .closed hfs hopen (hc.other h hm hj) ?_ ?_
    · rw [hm.others j hj, hm.geometry]
      exact hroom
    · rw [hm.others j hj]
      exact hsaved.moved hm hp hE rfl rfl hsaved.clean rfl

/-- **The file of a call.** -/
theorem Serves.slot (hs : Slot s.vol (s.own i) fp f) (ho : Object s.vol.fs.toGeometry (s.own i) fp f)
    (h : Serves W (fun _ _ => False) s i fp f' own fp' v)
    (hp : Placed W s.vol.fs.toGeometry fp.dirSect.toNat fp.dirPtr) : Slot v (own i) fp' f' := by
  refine .opened h.opened fun hmod => ?_
  rcases h.modified with hmod' | ⟨hcalm, hown⟩
  · exact absurd hmod hmod'
  · cases hs with
    | opened _ hsaved =>
      have hsaved := hsaved (by rw [← hcalm.and_flag (by decide)]; exact hmod)
      have hsize : f'.size = f.size := by
        rw [← h.opened.object.size, ← ho.size, hcalm.obj]
      rw [hown]
      exact hsaved.moved h.moves hp (fun _ _ _ => id) hcalm.dirSect hcalm.dirPtr (hcalm.dirty hsaved.clean) hsize
    | closed hfs _ _ _ _ => exact absurd (hfs.symm.trans ho.fs) (by decide)

/-- The entries stay where they are. -/
theorem Files.set_placed (t : Files D) (hs : fp.dirSect = (t.fil i).dirSect) (hd : fp.dirPtr = (t.fil i).dirPtr) (j : Nat) :
    ((t.set i fp v).fil j).dirSect = (t.fil j).dirSect ∧ ((t.set i fp v).fil j).dirPtr = (t.fil j).dirPtr := by
  show (Function.update t.fil i fp j).dirSect = _ ∧ (Function.update t.fil i fp j).dirPtr = _
  by_cases hj : j = i
  · subst hj
    rw [Function.update_self]
    exact ⟨hs, hd⟩
  · rw [Function.update_of_ne hj]
    exact ⟨rfl, rfl⟩

/-- **One of the files is another.** -/
theorem Held.set {t : Files D} {sp : Space} (h : Held U W own t sp) (hi : i ∈ U)
    (hm : Moves W (t.fil i).entry i ⟨own, t.vol⟩ ⟨own', v⟩) (hslot : Slot v (own' i) fp f)
    (hs : fp.dirSect = (t.fil i).dirSect) (hd : fp.dirPtr = (t.fil i).dirPtr)
    (hcl : (sp.file i).clusters = (own i).length) (hcl' : f.clusters = (own' i).length) :
    Held U W own' (t.set i fp v) ⟨sp.free + (sp.file i).clusters - f.clusters, Function.update sp.file i f⟩ := by
  have hg : v.fs.toGeometry = t.vol.fs.toGeometry := hm.geometry
  have hspace : v.freeClusters + (own' i).length = t.vol.freeClusters + (own i).length := hm.space
  have hfil := t.set_placed (v := v) hs hd
  have hentry : ∀ j, ((t.set i fp v).fil j).entry = (t.fil j).entry := fun j => by
    unfold Fil.entry
    rw [(hfil j).1, (hfil j).2]
  refine ⟨hm.good, ?_, fun j hj => ?_, fun j hj k hk hne => ?_, fun j hj => ?_, fun j hj => ?_⟩
  · show sp.free + _ - _ = v.freeClusters
    rw [hcl, hcl', h.free]
    omega
  · rw [(hfil j).1, (hfil j).2]
    show Placed W v.fs.toGeometry _ _
    rw [hg]
    exact h.placed j hj
  · rw [hentry, hentry]
    exact h.apart j hj k hk hne
  · show Slot v (own' j) (Function.update t.fil i fp j) (Function.update sp.file i f j)
    by_cases hji : j = i
    · subst hji
      rw [Function.update_self, Function.update_self]
      exact hslot
    · rw [Function.update_of_ne hji, Function.update_of_ne hji]
      exact (h.slot j hj).other h.good hm hji (h.placed j hj) (h.apart i hi j hj hji)
  · have hji : j ≠ i := by
      rintro rfl
      exact hj hi
    show (Function.update t.fil i fp j).obj.fs = false ∧ (Function.update sp.file i f j).opened = false
    rw [Function.update_of_ne hji, Function.update_of_ne hji]
    exact h.idle j hj

/-! ## What is left alone -/

/-- **What calls of the files `U` leave alone**: clusters of others, and what is in directories beside the entries. -/
structure Leaves (U W : Set Nat) (own : Nat → List Nat) (t : Files D) (own' : Nat → List Nat) (t' : Files D) : Prop where
  geometry : t'.vol.fs.toGeometry = t.vol.fs.toGeometry
  placed : ∀ i, (t'.fil i).dirSect = (t.fil i).dirSect ∧ (t'.fil i).dirPtr = (t.fil i).dirPtr
  foreign : Foreign ⟨own, t.vol⟩ ⟨own', t'.vol⟩
  mine : ∀ x, ∀ j ∈ U, Mine ⟨own', t'.vol⟩ j x → ∃ i ∈ U, Mine ⟨own, t.vol⟩ i x
  look : ∀ x ∈ W, ¬ t.vol.fs.IsFat x → ¬ t.vol.fs.IsInfo x → ∀ m, (∀ i ∈ U, ¬ (t.fil i).entry x m) →
    t'.vol.look x m = t.vol.look x m
  store : ∀ x, x ∉ W → ¬ t.vol.fs.IsCopy x → (∀ i ∈ U, ¬ Mine ⟨own, t.vol⟩ i x) → t'.vol.store x = t.vol.store x

namespace Leaves

variable {t t' t'' : Files D} {own'' : Nat → List Nat}

theorem refl (U W : Set Nat) (own : Nat → List Nat) (t : Files D) : Leaves U W own t own t :=
  ⟨rfl, fun _ => ⟨rfl, rfl⟩, fun _ hc _ => ⟨hc, rfl⟩, fun _ j hj hx => ⟨j, hj, hx⟩, fun _ _ _ _ _ _ => rfl, fun _ _ _ _ => rfl⟩

theorem entry (h : Leaves U W own t own' t') (i : Nat) : (t'.fil i).entry = (t.fil i).entry := by
  unfold Fil.entry
  rw [(h.placed i).1, (h.placed i).2]

theorem trans (h : Leaves U W own t own' t') (h' : Leaves U W own' t' own'' t'') : Leaves U W own t own'' t'' where
  geometry := h'.geometry.trans h.geometry
  placed := fun i => ⟨(h'.placed i).1.trans (h.placed i).1, (h'.placed i).2.trans (h.placed i).2⟩
  foreign := h.foreign.trans h'.foreign
  mine := fun x j hj hx => by
    obtain ⟨i, hi, hx'⟩ := h'.mine x j hj hx
    exact h.mine x i hi hx'
  look := fun x hx hf hi m hm => (h'.look x hx (h.geometry ▸ hf) (h.geometry ▸ hi) m fun i hiU => by
    rw [h.entry i]
    exact hm i hiU).trans (h.look x hx hf hi m hm)
  store := fun x hx hc hm => (h'.store x hx (h.geometry ▸ hc) fun i hi hx' => by
    obtain ⟨k, hk, hx''⟩ := h.mine x i hi hx'
    exact hm k hk hx'').trans (h.store x hx hc hm)

theorem of_moves (hi : i ∈ U) (hm : Moves W (t.fil i).entry i ⟨own, t.vol⟩ ⟨own', v⟩) (hs : fp.dirSect = (t.fil i).dirSect)
    (hd : fp.dirPtr = (t.fil i).dirPtr) : Leaves U W own t own' (t.set i fp v) where
  geometry := hm.geometry
  placed := t.set_placed hs hd
  foreign := hm.foreign
  mine := fun x j hj hx => by
    by_cases hji : j = i
    · subst hji
      exact ⟨j, hi, hm.mine hx⟩
    · obtain ⟨c, hc, hcj, hin⟩ := hx
      rcases hcj with h0 | hmem
      · exact ⟨i, hi, hm.mine ⟨c, hc, .inl h0, hin⟩⟩
      · refine ⟨j, hj, c, ?_, .inr (hm.others j hji ▸ hmem), ?_⟩
        · show t.vol.fs.Cluster c
          rw [← hm.geometry]
          exact hc
        · show t.vol.fs.InCluster c x
          rw [← hm.geometry]
          exact hin
  look := fun x hx hf hinfo m hno => hm.look x hx hf hinfo m (hno i hi)
  store := fun x hx hc hno => hm.store x hx hc (hno i hi)

end Leaves

/-! ## One call -/

theorem Held.cases {t : Files D} {sp : Space} (h : Held U W own t sp) (i : Nat) :
    (i ∈ U ∧ Opened t.vol (own i) (t.fil i) (sp.file i)) ∨ ((t.fil i).obj.fs = false ∧ (sp.file i).opened = false) := by
  by_cases hi : i ∈ U
  · cases h.slot i hi with
    | opened ho _ => exact .inl ⟨hi, ho⟩
    | closed hfs hopen _ _ _ => exact .inr ⟨hfs, hopen⟩
  · exact .inr (h.idle i hi)

/-- The answer to a call of an object that is not open. -/
def Request.refused : Request → Reply (BitVec 8)
  | .read _ buff _ => ⟨.invalidObject, 0, buff⟩
  | _ => .bare .invalidObject 0

theorem request_refused {t : Files D} {r : Request} (hfs : (t.fil r.file).obj.fs = false) :
    request r t = .ok (r.refused, t) := by
  have hset : ∀ i, t.set i (t.fil i) t.vol = t := fun i => by
    unfold Files.set
    rw [Function.update_eq_self]
  have hcheck : ∀ i, (t.fil i).obj.fs = false → checkValidity t.vol (t.fil i) = .ok .invalidObject := fun i =>
    checkValidity_closed t.vol
  have hvalid : ∀ i, (t.fil i).obj.fs = false → validate t.vol (t.fil i) = .ok .invalidObject := fun i =>
    validate_closed t.vol
  have hok : Fresult.invalidObject ≠ .ok := by decide
  cases r with
  | read i buff btr =>
    rw [request, fRead, hcheck i hfs, ok_bind, if_pos hok]
    exact congrArg (fun t' => Except.ok (_, t')) (hset i)
  | write i buff btw =>
    rw [request, fWrite, hcheck i hfs, ok_bind, if_pos hok]
    exact congrArg (fun t' => Except.ok (_, t')) (hset i)
  | lseek i ofs =>
    rw [request, fLseek, hcheck i hfs, ok_bind, if_pos hok]
    exact congrArg (fun t' => Except.ok (_, t')) (hset i)
  | truncate i =>
    rw [request, fTruncate, hcheck i hfs, ok_bind, if_pos hok]
    exact congrArg (fun t' => Except.ok (_, t')) (hset i)
  | sync i =>
    rw [request, fSync, hvalid i hfs, ok_bind, if_pos hok]
    exact congrArg (fun t' => Except.ok (_, t')) (hset i)
  | close i =>
    rw [request, fClose, fSync, hvalid i hfs, ok_bind, if_pos hok]
    exact congrArg (fun t' => Except.ok (_, t')) (hset i)

theorem serve_refused (hopen : f.opened = false) (u free : Nat) (r : Request) :
    r.refused.Agrees (f.serve u free r).1 ∧ (f.serve u free r).2 = f := by
  cases r with
  | read i buff btr =>
    simp only [File.serve, hopen]
    exact ⟨⟨rfl, rfl, fun k b hb => Option.some.inj hb⟩, rfl⟩
  | write i buff btw =>
    simp only [File.serve, hopen]
    exact ⟨Reply.agrees_bare .invalidObject rfl _, rfl⟩
  | lseek i ofs =>
    simp only [File.serve, hopen]
    exact ⟨Reply.agrees_bare .invalidObject rfl _, rfl⟩
  | truncate i =>
    simp only [File.serve, hopen]
    exact ⟨Reply.agrees_bare .invalidObject rfl _, rfl⟩
  | sync i =>
    simp only [File.serve, hopen]
    exact ⟨Reply.agrees_bare .invalidObject rfl _, trivial⟩
  | close i =>
    have hclosed : { f with opened := false } = f := by
      rw [← hopen]
    simp only [File.serve, hclosed, hopen]
    exact ⟨Reply.agrees_bare .invalidObject rfl _, trivial⟩

/-- **A call of an object that is not open** is refused, and changes nothing. -/
theorem fileObject_refused {sp : Space} {r : Request} (u : Nat) (hopen : (sp.file r.file).opened = false) :
    r.refused.Agrees (fileObject u r sp).1 ∧ (fileObject u r sp).2 = sp := by
  obtain ⟨hagrees, hsame⟩ := serve_refused hopen u sp.free r
  refine ⟨hagrees, ?_⟩
  simp only [fileObject]
  rw [hsame, Function.update_eq_self, Nat.add_sub_cancel]

/-- A call that is no `f_sync` and no `f_close`. -/
theorem Held.serves {t : Files D} {sp : Space} (h : Held U W own t sp) (hi : i ∈ U)
    (ho : Opened t.vol (own i) (t.fil i) (sp.file i))
    (hs : Serves W (fun _ _ => False) ⟨own, t.vol⟩ i (t.fil i) f own' fp v) :
    Held U W own' (t.set i fp v) ⟨sp.free + (sp.file i).clusters - f.clusters, Function.update sp.file i f⟩ ∧
      Leaves U W own t own' (t.set i fp v) := by
  have hm : Moves W (t.fil i).entry i ⟨own, t.vol⟩ ⟨own', v⟩ := hs.moves.mono fun _ _ => False.elim
  have hslot : Slot v (own' i) fp f := hs.slot (h.slot i hi) ho.object (h.placed i hi)
  exact ⟨h.set hi hm hslot hs.dirSect hs.dirPtr ho.object.clusters hs.opened.object.clusters,
    .of_moves hi hm hs.dirSect hs.dirPtr⟩

/-- **What `f_sync` leaves is saved**, now or since it was. -/
theorem Slot.saved (hs : Slot v l fp f) (hfs : fp.obj.fs = true)
    (hno : fp.flag &&& faModified = 0 → (fp', v') = (fp, v))
    (hyes : fp.flag &&& faModified ≠ 0 → fp' = fp.synced ∧ Flushed W v' ∧
      Recorded v'.fs l f.size fp.dirPtr (v'.look fp.dirSect.toNat)) : Saved v' l fp' f := by
  by_cases hmod : fp.flag &&& faModified = 0
  · obtain ⟨rfl, rfl⟩ := Prod.mk.inj (hno hmod)
    cases hs with
    | opened _ hsaved => exact hsaved hmod
    | closed _ _ _ _ hsaved => exact hsaved
  · obtain ⟨rfl, -, hrecorded⟩ := hyes hmod
    refine ⟨?_, hrecorded⟩
    rw [synced_line]
    exact clean_dirty fp

theorem synced_entry {P : Prop} (hno : fp.flag &&& faModified = 0 → (fp', v') = (fp, v))
    (hyes : fp.flag &&& faModified ≠ 0 → fp' = fp.synced ∧ P) : fp'.dirSect = fp.dirSect ∧ fp'.dirPtr = fp.dirPtr := by
  by_cases hmod : fp.flag &&& faModified = 0
  · obtain ⟨rfl, -⟩ := Prod.mk.inj (hno hmod)
    exact ⟨rfl, rfl⟩
  · obtain ⟨rfl, -⟩ := hyes hmod
    exact ⟨rfl, rfl⟩

/-- **A call answers as the file does**, and leaves the other files and everything else alone. -/
theorem request_returns {t : Files D} {sp : Space} (h : Held U W own t sp) (r : Request) :
    Returns (request r t) (fun p => p.1.Agrees (fileObject t.vol.fs.unit r sp).1 ∧
      ∃ own', Held U W own' p.2 (fileObject t.vol.fs.unit r sp).2 ∧ Leaves U W own t own' p.2) := by
  rcases h.cases r.file with ⟨hi, ho⟩ | ⟨hfs, hopen⟩
  swap
  · obtain ⟨hagrees, hsp⟩ := fileObject_refused t.vol.fs.unit hopen
    rw [request_refused hfs, hsp]
    exact ⟨hagrees, own, h, .refl ..⟩
  obtain ⟨free, file⟩ := sp
  have hfree : free = t.vol.freeClusters := h.free
  subst hfree
  cases r with
  | read i buff btr =>
    replace hi : i ∈ U := hi
    replace ho : Opened t.vol (own i) (t.fil i) (file i) := ho
    refine Sat.bind (fRead_returns (E := fun _ _ => False) (s := ⟨own, t.vol⟩) h.good ho buff btr t.vol.fs.unit t.vol.freeClusters) ?_
    rintro ⟨res, buff', br, fp, v⟩ ⟨hagrees, hserves⟩
    exact ⟨hagrees, own, h.serves hi ho hserves⟩
  | write i buff btw =>
    replace hi : i ∈ U := hi
    replace ho : Opened t.vol (own i) (t.fil i) (file i) := ho
    refine Sat.bind (fWrite_returns (E := fun _ _ => False) (s := ⟨own, t.vol⟩) h.good ho buff btw) ?_
    rintro ⟨res, bw, fp, v⟩ ⟨hagrees, own', hserves⟩
    exact ⟨hagrees, own', h.serves hi ho hserves⟩
  | lseek i ofs =>
    replace hi : i ∈ U := hi
    replace ho : Opened t.vol (own i) (t.fil i) (file i) := ho
    refine Sat.bind (fLseek_returns (E := fun _ _ => False) (s := ⟨own, t.vol⟩) h.good ho ofs) ?_
    rintro ⟨res, fp, v⟩ ⟨hagrees, own', hserves⟩
    exact ⟨hagrees, own', h.serves hi ho hserves⟩
  | truncate i =>
    replace hi : i ∈ U := hi
    replace ho : Opened t.vol (own i) (t.fil i) (file i) := ho
    refine Sat.bind (fTruncate_returns (E := fun _ _ => False) (s := ⟨own, t.vol⟩) h.good ho) ?_
    rintro ⟨res, fp, v⟩ ⟨hagrees, own', hserves⟩
    exact ⟨hagrees, own', h.serves hi ho hserves⟩
  | sync i =>
    replace hi : i ∈ U := hi
    replace ho : Opened t.vol (own i) (t.fil i) (file i) := ho
    refine Sat.bind (fSync_returns (s := ⟨own, t.vol⟩) h.good ho (h.placed i hi)) ?_
    rintro ⟨res, fp, v⟩ ⟨rfl, hmoves, ho', hno, hyes⟩
    have hsaved : Saved v (own i) fp (file i) := (h.slot i hi).saved ho.object.fs hno hyes
    have hentry := synced_entry hno hyes
    have hserve : (file i).serve t.vol.fs.unit t.vol.freeClusters (.sync i) = (.bare .ok 0, file i) := by
      simp only [File.serve, ho.object.opened, if_true]
    simp only [fileObject, Request.file, hserve]
    exact ⟨Reply.agrees_bare .ok rfl _, own, h.set hi hmoves (.opened ho' fun _ => hsaved) hentry.1 hentry.2
      ho.object.clusters ho.object.clusters, .of_moves hi hmoves hentry.1 hentry.2⟩
  | close i =>
    replace hi : i ∈ U := hi
    replace ho : Opened t.vol (own i) (t.fil i) (file i) := ho
    refine Sat.bind (fClose_returns (s := ⟨own, t.vol⟩) h.good ho (h.placed i hi)) ?_
    rintro ⟨res, fp₁, v⟩ ⟨rfl, fp, rfl, hmoves, ho', hno, hyes⟩
    have hsaved : Saved v (own i) fp (file i) := (h.slot i hi).saved ho.object.fs hno hyes
    have hentry := synced_entry hno hyes
    have hserve : (file i).serve t.vol.fs.unit t.vol.freeClusters (.close i) =
        (.bare .ok 0, { file i with opened := false }) := by
      simp only [File.serve, ho.object.opened, if_true]
    have hslot : Slot v (own i) fp.close { file i with opened := false } :=
      .closed rfl rfl (ho'.cached.of_line rfl) (fun x => ho'.object.data_none) ⟨hsaved.clean, hsaved.recorded⟩
    simp only [fileObject, Request.file, hserve]
    exact ⟨Reply.agrees_bare .ok rfl _, own, h.set hi hmoves hslot hentry.1 hentry.2
      ho.object.clusters ho.object.clusters, .of_moves hi hmoves hentry.1 hentry.2⟩

/-! ## Two files -/

/-- The sectors in front of the clusters, without the copies of the FAT. -/
def Geometry.front (g : Geometry) : Set Nat := {x | x < g.database.toNat ∧ ¬ g.IsCopy x}

theorem Geometry.Fits.front_windows (h : g.Fits n) : g.Windows n g.front where
  lt := fun x hx => by
    have := h.fits
    have := hx.1
    omega
  fat := fun x ⟨h1, h2⟩ => by
    have hdata := h.data
    have hmul := Nat.mul_le_mul_right g.fsize.toNat h.nFats
    exact ⟨by omega, fun hc => absurd hc.1 (by omega)⟩
  copy := fun _ hx => hx.2
  info := fun h32 => by
    have h1 := h.info h32
    have h2 := h.data
    exact ⟨by omega, fun hc => absurd hc.1 (by omega)⟩

/-- An object as `f_open` makes it for a new file, with its entry at `p` of the root directory. -/
def newFil (p : Nat) : Fil where
  obj := ⟨true, 1, 0, 0⟩
  flag := 0x23
  err := .ok
  fptr := 0
  clust := 0
  sect := 0
  dirSect := 3
  dirPtr := p
  buf := fun _ => 0

def newFile : File := ⟨true, true, true, 0, 0, 0, fun _ => none⟩

/-- Two new files, `0` and `1`, of a volume without files. -/
def twoFiles : Files ramDisk := ⟨fun i => if i < 2 then newFil (32 * i) else (newFil 0).close, emptyVol⟩

def twoSpace : Space := ⟨8, fun i => if i < 2 then newFile else { newFile with opened := false }⟩

theorem emptyChains_good : Good emptyVol.fs.front emptyChains where
  sound :=
    { emptyChains_sound with
      mounted := ⟨emptyVol_fits, emptyVol_fits.front_windows, .of_clean rfl fun hs => absurd hs.1 (by decide),
        fun _ _ _ _ => rfl⟩ }
  aside := fun i x ⟨c, hc, _, hin⟩ hx => absurd hx.1 (Nat.not_lt.2 (emptyVol_fits.inCluster hc hin).1)

theorem newFil_opened (p : Nat) : Opened emptyVol [] (newFil p) newFile where
  object := by
    refine ⟨rfl, rfl, rfl, rfl, iff_of_true rfl ?_, iff_of_true rfl ?_, rfl, rfl, rfl, rfl, Nat.le_refl _, Nat.zero_le _,
      fun _ _ => rfl⟩
    · show (0x23 : BitVec 8) &&& faRead ≠ 0
      decide
    · show (0x23 : BitVec 8) &&& faWrite ≠ 0
      decide
  cached := by
    have hnone : ∀ k x, emptyVol.fs.place [] k ≠ some x := fun k x hk => by cases hk
    refine ⟨fun hd => ?_, fun k hk => absurd hk (hnone k _), fun x _ k hk => absurd hk (hnone k x)⟩
    have hclean : (newFil p).line.dirty = false := by
      rw [Bool.eq_false_iff, Ne, line_dirty, not_not]
      show (0x23 : BitVec 8) &&& faDirty = 0
      decide
    exact absurd (hclean.symm.trans hd) (by decide)
  current := fun hp => absurd hp (Nat.lt_irrefl 0)
  within := fun hp => absurd rfl hp

/-- The sector of the root directory. -/
theorem root_placed (hp : p % 32 = 0) (hlt : p < 512) : Placed emptyVol.fs.front emptyVol.fs.toGeometry 3 p := by
  refine ⟨⟨by decide, ?_⟩, ?_, ?_, hp, hlt⟩
  · unfold Geometry.IsCopy
    decide
  · unfold Geometry.IsFat
    decide
  · unfold Geometry.IsInfo
    decide

theorem twoFiles_held : Held {i | i < 2} emptyVol.fs.front (fun _ => []) twoFiles twoSpace where
  good := emptyChains_good
  free := ((allFree_iff emptyVol).1 fun c _ => emptyVol_table c).symm
  placed := fun i hi => by
    replace hi : i < 2 := hi
    show Placed _ _ (ite _ _ _ : Fil).dirSect.toNat (ite _ _ _ : Fil).dirPtr
    rw [if_pos hi]
    exact root_placed (Nat.mul_mod_right ..) (by show 32 * i < 512; omega)
  apart := fun i hi j hj hne x m => by
    replace hi : i < 2 := hi
    replace hj : j < 2 := hj
    show EntryAt _ (ite _ _ _ : Fil).dirPtr _ _ → ¬ EntryAt _ (ite _ _ _ : Fil).dirPtr _ _
    rw [if_pos hi, if_pos hj]
    rintro ⟨-, h1, h2⟩ ⟨-, h3, h4⟩
    replace h1 : 32 * j ≤ m := h1
    replace h2 : (m : Nat) < 32 * j + 32 := h2
    replace h3 : 32 * i ≤ m := h3
    replace h4 : (m : Nat) < 32 * i + 32 := h4
    omega
  slot := fun i hi => by
    replace hi : i < 2 := hi
    show Slot _ _ (ite _ _ _) (ite _ _ _)
    rw [if_pos hi, if_pos hi]
    refine .opened (newFil_opened _) fun hmod => absurd hmod ?_
    show (0x23 : BitVec 8) &&& faModified ≠ 0
    decide
  idle := fun i hi => by
    replace hi : ¬ i < 2 := hi
    show (ite _ _ _ : Fil).obj.fs = false ∧ (ite _ _ _ : File).opened = false
    rw [if_neg hi, if_neg hi]
    exact ⟨rfl, rfl⟩

/-! ## All calls -/

/-- **Files are what their callers know**: however the calls of the files come, each is answered as the file answers it, with
the bytes that were written last; and clusters of others, and entries of other files, are as they were. -/
theorem files_refine {t : Files D} {sp : Space} (h : Held U W own t sp) (rs : List Request) :
    Returns (Sequential.serve request t rs) (fun p =>
      List.Forall₂ Reply.Agrees p.1 (Sequential.answers (fileObject t.vol.fs.unit) sp rs) ∧
      ∃ own', Held U W own' p.2 (Sequential.after (fileObject t.vol.fs.unit) sp rs) ∧ Leaves U W own t own' p.2) := by
  refine Sequential.serve_agrees (P := fun _ => True)
    (R := fun t' sp' => ∃ own', Held U W own' t' sp' ∧ Leaves U W own t own' t') ?_ (fun _ _ => trivial) ⟨own, h, .refl ..⟩
  rintro r t' sp' - ⟨own₁, h₁, hl₁⟩
  have hreq := request_returns h₁ r
  rw [hl₁.geometry] at hreq
  refine Sat.mono hreq ?_ (fun _ => id)
  rintro ⟨reply, t''⟩ ⟨hagrees, own₂, h₂, hl₂⟩
  exact ⟨hagrees, own₂, h₂, hl₁.trans hl₂⟩

/-- One file is written and read again while the other grows, and both share the free clusters. -/
def twoCalls : List Request :=
  [.write 0 (fun k => BitVec.ofNat 8 k) 700, .lseek 1 2000, .lseek 0 500, .read 0 (fun _ => 0) 100, .truncate 0,
    .write 1 (fun _ => 7) 9000, .close 1, .sync 0]

theorem files_refine_twoFiles : Returns (Sequential.serve request twoFiles twoCalls) (fun p =>
    List.Forall₂ Reply.Agrees p.1 (Sequential.answers (fileObject twoFiles.vol.fs.unit) twoSpace twoCalls) ∧
    ∃ own', Held {i | i < 2} emptyVol.fs.front own' p.2
      (Sequential.after (fileObject twoFiles.vol.fs.unit) twoSpace twoCalls) ∧
      Leaves {i | i < 2} emptyVol.fs.front (fun _ => []) twoFiles own' p.2) :=
  files_refine twoFiles_held twoCalls

/-! ## What is on the drive -/

/-- **The file is on the drive**: its chain in every copy of the FAT, its first cluster and size in its entry, and all of its
bytes that are known in the sectors of the chain. -/
structure OnDrive (v : Vol D) (l : List Nat) (x p : Nat) (f : File) : Prop where
  chain : ∀ j < v.fs.nFats.toNat,
    Linked (Packed.entry (v.copy j) v.fs.fsType.stride v.fs.fsType.width) v.fs.IsEnd l
  recorded : Recorded v.fs l f.size p (v.store x)
  bytes : ∀ k (j : Fin 512) b, f.data (k * 512 + j) = some b → ∃ y, v.fs.place l k = some y ∧ v.store y j = b

theorem Saved.onDrive (h : Good W s) (hs : Saved s.vol (s.own i) fp f) (hc : Cached s.vol (s.own i) fp f.data)
    (hroom : ∀ x, (s.own i).length * s.vol.fs.unit ≤ x → f.data x = none)
    (hp : Placed W s.vol.fs.toGeometry fp.dirSect.toNat fp.dirPtr) (hf : Flushed W s.vol) :
    OnDrive s.vol (s.own i) fp.dirSect.toNat fp.dirPtr f := by
  refine ⟨fun j hj => ?_, ?_, fun k j b hb => ?_⟩
  · refine (h.sound.owns.linked i).congr fun c hc' => ?_
    exact durable_of_flushed h.sound.mounted hf j hj c (h.sound.owns.valid i c hc').2
  · rw [hf _ hp.window]
    exact hs.recorded
  · have hlt : k * 512 + j < (s.own i).length * s.vol.fs.unit := by
      by_contra hge
      rw [hroom _ (Nat.not_lt.1 hge)] at hb
      cases hb
    have hk : k < (s.own i).length * s.vol.fs.csize.toNat := by
      have hunit : (s.own i).length * s.vol.fs.unit = (s.own i).length * s.vol.fs.csize.toNat * 512 :=
        (Nat.mul_assoc ..).symm
      omega
    have hcs := h.sound.mounted.fits.csize_pos
    obtain ⟨c, hc'⟩ := Extent.exists_block hcs hk
    have hplace : s.vol.fs.place (s.own i) k = some _ := (Extent.cell_of_block hcs hc').1
    exact ⟨_, hplace, hc.known.store _ (fun hd => absurd (hs.clean.symm.trans hd) (by decide)) k hplace j b hb⟩

/-- The file is closed, or not modified since it was synchronized. -/
def Fil.Quiet (fp : Fil) : Prop := fp.obj.fs = false ∨ fp.flag &&& faModified = 0

theorem Held.onDrive {t : Files D} {sp : Space} (h : Held U W own t sp) (hf : Flushed W t.vol) (hi : i ∈ U)
    (hq : (t.fil i).Quiet) : OnDrive t.vol (own i) (t.fil i).dirSect.toNat (t.fil i).dirPtr (sp.file i) := by
  cases h.slot i hi with
  | opened ho hsaved =>
    have hmod := hq.resolve_left fun hfs => absurd (ho.object.fs.symm.trans hfs) (by decide)
    exact (hsaved hmod).onDrive (s := ⟨own, t.vol⟩) h.good ho.cached (fun x => ho.object.data_none) (h.placed i hi) hf
  | closed _ _ hc hroom hsaved => exact hsaved.onDrive (s := ⟨own, t.vol⟩) h.good hc hroom (h.placed i hi) hf

theorem synced_modified (fp : Fil) : fp.synced.flag &&& faModified = 0 := clear_self ..

/-- **A file that was modified is synchronized or closed**, and nothing is held back in the window. -/
theorem request_flushed {t : Files D} {sp : Space} (h : Held U W own t sp) (hi : i ∈ U) (hfs : (t.fil i).obj.fs = true)
    (hmod : (t.fil i).flag &&& faModified ≠ 0) {r : Request} (hr : r = .sync i ∨ r = .close i) :
    Returns (request r t) (fun p => Flushed W p.2.vol ∧ (p.2.fil i).Quiet) := by
  have ho := ((h.cases i).resolve_right fun hx => absurd (hfs.symm.trans hx.1) (by decide)).2
  rcases hr with rfl | rfl
  · refine Sat.bind (fSync_returns (s := ⟨own, t.vol⟩) h.good ho (h.placed i hi)) ?_
    rintro ⟨res, fp, v⟩ ⟨rfl, -, -, -, hyes⟩
    obtain ⟨rfl, hflushed, -⟩ := hyes hmod
    refine ⟨hflushed, .inr ?_⟩
    show (Function.update t.fil i _ i).flag &&& faModified = 0
    rw [Function.update_self]
    exact synced_modified _
  · refine Sat.bind (fClose_returns (s := ⟨own, t.vol⟩) h.good ho (h.placed i hi)) ?_
    rintro ⟨res, fp, v⟩ ⟨rfl, fp', rfl, -, -, -, hyes⟩
    refine ⟨(hyes hmod).2.1, .inl ?_⟩
    show (Function.update t.fil i _ i).obj.fs = false
    rw [Function.update_self]
    rfl

/-- **`f_sync` and `f_close` bring files to the drive**: after any calls, if one of the two is called for a file that was
modified, then it is on the drive, and so is each file that was not modified since, or is closed. -/
theorem files_saved {t : Files D} {sp : Space} (h : Held U W own t sp) (rs : List Request) (hi : i ∈ U) :
    Returns (Sequential.serve request t rs) (fun p => (p.2.fil i).obj.fs = true → (p.2.fil i).flag &&& faModified ≠ 0 →
      ∀ r, r = .sync i ∨ r = .close i → Returns (request r p.2) (fun q => ∃ own' : Nat → List Nat, ∀ j ∈ U, j = i ∨ (q.2.fil j).Quiet →
        OnDrive q.2.vol (own' j) (t.fil j).dirSect.toNat (t.fil j).dirPtr
          ((Sequential.after (fileObject t.vol.fs.unit) sp (rs ++ [r])).file j))) := by
  refine Sat.mono (files_refine h rs) ?_ (fun _ => id)
  rintro ⟨replies, t₁⟩ ⟨-, own₁, h₁, hl₁⟩ hfs hmod r hr
  have hreq := request_returns h₁ r
  rw [hl₁.geometry] at hreq
  refine Sat.mono (hreq.and (request_flushed h₁ hi hfs hmod hr)) ?_ (fun _ => id)
  rintro ⟨reply, t₂⟩ ⟨⟨-, own₂, h₂, hl₂⟩, hflushed, hquiet⟩
  refine ⟨own₂, fun j hj hq => ?_⟩
  have hq' : (t₂.fil j).Quiet := by
    rcases hq with rfl | hq
    · exact hquiet
    · exact hq
  have hdrive := h₂.onDrive hflushed hj hq'
  have hplaced := (hl₁.trans hl₂).placed j
  rw [Sequential.after_concat]
  show OnDrive t₂.vol (own₂ j) (t.fil j).dirSect.toNat (t.fil j).dirPtr _
  rw [← hplaced.1, ← hplaced.2]
  exact hdrive

theorem files_saved_twoFiles : Returns (Sequential.serve request twoFiles [.write 0 (fun _ => 7) 9]) (fun p =>
    (p.2.fil 0).obj.fs = true → (p.2.fil 0).flag &&& faModified ≠ 0 → ∀ r, r = .sync 0 ∨ r = .close 0 →
      Returns (request r p.2) (fun q => ∃ own' : Nat → List Nat, ∀ j ∈ {i | i < 2}, j = 0 ∨ (q.2.fil j).Quiet →
        OnDrive q.2.vol (own' j) (twoFiles.fil j).dirSect.toNat (twoFiles.fil j).dirPtr
          ((Sequential.after (fileObject twoFiles.vol.fs.unit) twoSpace ([.write 0 (fun _ => 7) 9] ++ [r])).file j))) :=
  files_saved twoFiles_held [.write 0 (fun _ => 7) 9] (show 0 < 2 by decide)

end Fatfs
end CheriOS
