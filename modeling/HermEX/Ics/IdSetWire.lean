import HermEX.Framework.Runs
import HermEX.Ics.Globset

namespace HermEX.Ics

open Framework Mapi

/-- Between replica ids and replica GUIDs. -/
structure ReplicaMapper where
  toGUID : UInt16 → Option GUID
  toID : GUID → Option UInt16

def storeMapper (home : GUID) : ReplicaMapper where
  toGUID replid := if replid=1 then some home else none
  toID g := if g=home then some 1 else none

def ReplicaMapper.Names (m : ReplicaMapper) (replid : UInt16) : Prop :=
  ∃ g,m.toGUID replid=some g ∧ m.toID g=some replid

def Form.pack : Form → Form
  | .idPacked | .idLoose => .idPacked
  | .guidPacked | .guidLoose => .guidPacked

namespace IDSet

def removeFrom (e : EID) : List ReplNode → List ReplNode
  | [] => []
  | n::ns => if n.replid=e.replID then {n with ranges:=n.ranges.erase e.gcValue}::ns
      else n::removeFrom e ns

def remove (s : IDSet) (e : EID) : IDSet :=
  if s.form.packed then s else {s with repls:=removeFrom e s.repls}

def appendRanges : List (UInt16×Nat×Nat) → IDSet → Bool×IDSet
  | [],s => (true,s)
  | r::rs,s => match s.appendRange r.1 r.2.1 r.2.2 with
    | none => (false,s)
    | some s => appendRanges rs s

def concatenate (s src : IDSet) : Bool×IDSet :=
  if s.form.packed ∨ src.form.packed then (false,s) else appendRanges src.forEachRange s

def convert (mapper : Option ReplicaMapper) (s : IDSet) : Option IDSet :=
  match s.form with
  | .idPacked => some {s with form:=.idLoose}
  | .guidPacked => mapper.bind fun m =>
    (s.repls.mapM fun n => (m.toID n.replguid).map fun replid => {n with replid:=replid}).map
      fun repls => ⟨.guidLoose,repls⟩
  | _ => none

def replicaKey (mapper : Option ReplicaMapper) (form : Form) (n : ReplNode) : Option Bytes :=
  match form with
  | .idLoose => some (leBytes 2 n.replid.toNat)
  | .guidLoose => mapper.bind fun m => (m.toGUID n.replid).map GUID.flat
  | _ => none

def serialize (mapper : Option ReplicaMapper) (s : IDSet) : Option Bytes :=
  ((s.repls.filter fun n => !n.ranges.isEmpty).mapM fun n =>
    (replicaKey mapper s.form n).map fun key => key++serializeGlobset n.ranges).map List.flatten

def readKey (form : Form) (data : Bytes) : Option (ReplNode×Bytes) :=
  match form with
  | .idPacked => if data.length<2 then none
      else some (⟨UInt16.ofNat (leNat (data.take 2)),.zero,.empty⟩,data.drop 2)
  | .guidPacked => if data.length<16 then none
      else some (⟨0,GUID.ofFlat (data.take 16),.empty⟩,data.drop 16)
  | _ => none

def readBlocks (form : Form) : Nat → Bytes → Option (List ReplNode)
  | _,[] => some []
  | 0,_ => none
  | n+1,data => (readKey form data).bind fun x =>
    let (rs,consumed) := deserializeGlobset x.2
    if consumed=0 then none
    else (readBlocks form n (x.2.drop consumed)).map fun ns => {x.1 with ranges:=rs}::ns

def deserialize (form : Form) (data : Bytes) : Option IDSet :=
  (readBlocks form data.length data).map fun repls => ⟨form,repls⟩

def Holds (s : IDSet) (replid : UInt16) (v : Nat) : Prop :=
  ∃ n∈s.repls,n.replid=replid ∧ n.ranges.contains v=true

def rangesOf (s : IDSet) (replid : UInt16) : List RangeNode :=
  ((s.repls.find? fun n => n.replid=replid).map fun n => n.ranges.nodes).getD []

def Resolvable (mapper : Option ReplicaMapper) (form : Form) (ns : List ReplNode) : Prop :=
  form=.guidLoose → ∃ m,mapper=some m ∧ ∀ n∈ns,m.Names n.replid

def resolve (mapper : Option ReplicaMapper) (form : Form) (n : ReplNode) : Option ReplNode :=
  match form with
  | .idPacked => some n
  | .guidPacked => mapper.bind fun m => (m.toID n.replguid).map fun replid => {n with replid:=replid}
  | _ => none

variable {mapper : Option ReplicaMapper} {form : Form}

theorem convert_eq (hloose : form.packed=false)
    (hmapper : form=.guidLoose → mapper.isSome=true) (repls : List ReplNode) :
    (⟨form.pack,repls⟩ : IDSet).convert mapper =
      (repls.mapM (resolve mapper form.pack)).map fun repls => ⟨form,repls⟩ := by
  cases form with
  | idPacked | guidPacked => cases hloose
  | idLoose =>
    have hid : repls.mapM (resolve mapper .idPacked)=some repls := by
      induction repls with
      | nil => rfl
      | cons n ns ih => simp [resolve,ih]
    simp [convert,Form.pack,hid]
  | guidLoose =>
    obtain ⟨m,rfl⟩ := Option.isSome_iff_exists.mp (hmapper rfl)
    rfl

theorem block_roundtrip (hloose : form.packed=false) {n : ReplNode}
    (hname : Resolvable mapper form [n]) :
    ∃ key wire conv,replicaKey mapper form n=some key ∧ 2≤key.length ∧
      (∀ rest,readKey form.pack (key++rest)=some (wire,rest)) ∧
      resolve mapper form.pack {wire with ranges:=n.ranges}=some conv ∧
      conv.replid=n.replid ∧ conv.ranges=n.ranges := by
  cases form with
  | idPacked | guidPacked => cases hloose
  | idLoose =>
    refine ⟨leBytes 2 n.replid.toNat,⟨n.replid,.zero,.empty⟩,⟨n.replid,.zero,n.ranges⟩,rfl,by simp,
      ?_,rfl,rfl,rfl⟩
    intro rest
    have hlen : ¬ (leBytes 2 n.replid.toNat++rest).length<2 := by
      rw [List.length_append,leBytes_length]
      omega
    have htake : (leBytes 2 n.replid.toNat++rest).take 2=leBytes 2 n.replid.toNat :=
      List.take_left' (leBytes_length 2 _)
    have hdrop : (leBytes 2 n.replid.toNat++rest).drop 2=rest :=
      List.drop_left' (leBytes_length 2 _)
    have hvalue : leNat (leBytes 2 n.replid.toNat)=n.replid.toNat :=
      leNat_leBytes 2 _ (by simpa using n.replid.toNat_lt)
    simp only [Form.pack,readKey,hlen,if_false,htake,hdrop,hvalue,UInt16.ofNat_toNat]
  | guidLoose =>
    obtain ⟨m,rfl,hnames⟩ := hname rfl
    obtain ⟨g,hg,hid⟩ := hnames n (by simp)
    have hkey : replicaKey (some m) .guidLoose n=some g.flat := by simp [replicaKey,hg]
    refine ⟨g.flat,⟨0,g,.empty⟩,⟨n.replid,g,n.ranges⟩,hkey,by simp [GUID.flat_length],?_,?_,rfl,
      rfl⟩
    · intro rest
      have hlen : ¬ (g.flat++rest).length<16 := by simp [GUID.flat_length]
      have htake : (g.flat++rest).take 16=g.flat := List.take_left' g.flat_length
      have hdrop : (g.flat++rest).drop 16=rest := List.drop_left' g.flat_length
      simp only [Form.pack,readKey,hlen,if_false,htake,hdrop,GUID.ofFlat_flat]
    · simp [resolve,Form.pack,hid]

theorem readBlocks_succ (form : Form) (k : Nat) {data : Bytes} (h : data≠[]) :
    readBlocks form (k+1) data=(readKey form data).bind fun x =>
      if (deserializeGlobset x.2).2=0 then none
      else (readBlocks form k (x.2.drop (deserializeGlobset x.2).2)).map fun ns =>
        {x.1 with ranges:=(deserializeGlobset x.2).1}::ns := by
  cases data with
  | nil => exact absurd rfl h
  | cons b bs => rfl

def block (n : ReplNode) : UInt16×RangeSet := (n.replid,n.ranges)

theorem blocks_roundtrip (hloose : form.packed=false) (ns : List ReplNode)
    (hname : Resolvable mapper form ns) (hfold : ∀ n∈ns,Foldable n.ranges.nodes) :
    ∃ bytes wire conv,
      (ns.mapM fun n => (replicaKey mapper form n).map fun key =>
        key++serializeGlobset n.ranges).map List.flatten=some bytes ∧
      (∀ k,bytes.length≤k → readBlocks form.pack k bytes=some wire) ∧
      wire.mapM (resolve mapper form.pack)=some conv ∧ conv.map block=ns.map block := by
  induction ns with
  | nil =>
    refine ⟨[],[],[],rfl,?_,rfl,rfl⟩
    intro k _
    cases k <;> rfl
  | cons n ns ih =>
    simp only [List.mem_cons,forall_eq_or_imp] at hfold
    have hone : Resolvable mapper form [n] := by
      intro hform
      obtain ⟨m,hm,hnames⟩ := hname hform
      exact ⟨m,hm,fun x hx => hnames x (by simp [List.mem_singleton.mp hx])⟩
    have hothers : Resolvable mapper form ns := by
      intro hform
      obtain ⟨m,hm,hnames⟩ := hname hform
      exact ⟨m,hm,fun x hx => hnames x (List.mem_cons_of_mem n hx)⟩
    obtain ⟨key,w,c,hkey,hlen,hread,hresolve,hreplid,hranges⟩ := block_roundtrip hloose hone
    obtain ⟨bytes,wire,conv,hbytes,hblocks,hconv,hsame⟩ := ih hothers hfold.2
    obtain ⟨parts,hparts,rfl⟩ := Option.map_eq_some_iff.mp hbytes
    refine ⟨key++serializeGlobset n.ranges++parts.flatten,{w with ranges:=n.ranges}::wire,
      c::conv,?_,?_,?_,?_⟩
    · simp [hkey,hparts]
    · intro k hk
      simp only [List.length_append] at hk
      obtain ⟨k,rfl⟩ : ∃ j,k=j+1 := ⟨k-1,by omega⟩
      have hglob := deserialize_serializeGlobset hfold.1 parts.flatten
      have hne : (serializeGlobset n.ranges).length≠0 := serializeGlobset_ne_nil n.ranges
      have hrest := hblocks k (by omega)
      have hdata : key++serializeGlobset n.ranges++parts.flatten≠[] := by
        apply List.length_pos_iff.mp
        simp only [List.length_append]
        omega
      rw [readBlocks_succ _ _ hdata,List.append_assoc,hread]
      simp [hglob,hne,hrest]
    · simp [hresolve,hconv]
    · simp [hsame,block,hreplid,hranges]

theorem set_roundtrip {s : IDSet} (hloose : s.form.packed=false)
    (hname : Resolvable mapper s.form s.repls)
    (hfold : ∀ n∈s.repls,n.ranges.isEmpty=false → Foldable n.ranges.nodes) :
    ∃ bytes packed s',s.serialize mapper=some bytes ∧
      deserialize s.form.pack bytes=some packed ∧ packed.convert mapper=some s' ∧
      s'.form=s.form ∧
      s'.repls.map block=(s.repls.filter fun n => !n.ranges.isEmpty).map block := by
  have hkept : Resolvable mapper s.form (s.repls.filter fun n => !n.ranges.isEmpty) := by
    intro hform
    obtain ⟨m,hm,hnames⟩ := hname hform
    exact ⟨m,hm,fun n hn => hnames n (List.mem_of_mem_filter hn)⟩
  have hmapper : s.form=.guidLoose → mapper.isSome=true := by
    intro hform
    obtain ⟨m,rfl,-⟩ := hname hform
    rfl
  obtain ⟨bytes,wire,conv,hbytes,hblocks,hconv,hsame⟩ := blocks_roundtrip hloose _ hkept (by
    intro n hn
    obtain ⟨hmem,hne⟩ := List.mem_filter.mp hn
    exact hfold n hmem (by simpa using hne))
  refine ⟨bytes,⟨s.form.pack,wire⟩,⟨s.form,conv⟩,hbytes,?_,?_,rfl,hsame⟩
  · rw [deserialize,hblocks bytes.length (Nat.le_refl _)]
    rfl
  · rw [convert_eq hloose hmapper,hconv]
    rfl

end IDSet
end HermEX.Ics
