import HermEX.Framework.Bytes

namespace HermEX.Framework

def Returns {α : Type} (w : Bytes) (read : Reader α) (x : α) : Prop :=
  ∀ rest,read (w++rest)=some (x,rest)

def Yields {ε α : Type} (w : Bytes) (decode : Bytes → Outcome ε α) (x : α) : Prop :=
  ∀ rest,decode (w++rest)=.done x w.length

namespace Returns

variable {α γ : Type}

variable {w : Bytes} {read : Reader α} {x : α}

theorem map (h : Returns w read x) (f : α → γ) : Returns w (read.map f) (f x) := by
  intro rest
  simp [Reader.map,h rest]

theorem map_comp {β : Type} {f : α → β} {x : β} (h : Returns w (read.map f) x) (g : β → γ) :
    Returns w (read.map fun y => g (f y)) (g x) := by
  intro rest
  rw [← h.map g rest]
  simp [Reader.map,Function.comp_def]

theorem bytes (w : Bytes) : Returns w (Reader.bytes w.length) w := by
  intro rest
  simp [Reader.bytes]

theorem number {k : Nat} (n : Nat) (h : n<256^k) (f : Nat → α) :
    Returns (leBytes k n) ((Reader.bytes k).map fun w => f (leNat w)) (f n) := by
  have hread := bytes (leBytes k n)
  rw [leBytes_length] at hread
  have hvalue := hread.map fun w => f (leNat w)
  rwa [leNat_leBytes k n h] at hvalue

theorem u16 (x : UInt16) : Returns (leBytes 2 x.toNat) Reader.u16 x := by
  have h := number (k := 2) x.toNat x.toNat_lt UInt16.ofNat
  rwa [UInt16.ofNat_toNat] at h

theorem u32 (x : UInt32) : Returns (leBytes 4 x.toNat) Reader.u32 x := by
  have h := number (k := 4) x.toNat x.toNat_lt UInt32.ofNat
  rwa [UInt32.ofNat_toNat] at h

theorem u64 (x : UInt64) : Returns (leBytes 8 x.toNat) Reader.u64 x := by
  have h := number (k := 8) x.toNat x.toNat_lt UInt64.ofNat
  rwa [UInt64.ofNat_toNat] at h

theorem bind {v : Bytes} {q : α → Reader γ} {y : γ} (hv : Returns v read x) (hw : Returns w (q x) y) :
    Returns (v++w) (fun b => (read b).bind fun r => q r.1 r.2) y := by
  intro rest
  have hfirst := hv (w++rest)
  have hsecond := hw rest
  simp [hfirst,hsecond]

theorem lenPrefixed (h : w.length<2^32) :
    Returns (leBytes 4 w.length++w) Reader.lenPrefixed w := by
  have hlen : (UInt32.ofNat w.length).toNat=w.length := UInt32.toNat_ofNat_of_lt' h
  have hcount := u32 (UInt32.ofNat w.length)
  rw [hlen] at hcount
  apply hcount.bind (q := fun n => Reader.bytes n.toNat)
  rw [hlen]
  exact bytes w

theorem replicate_map {write : α → Bytes} {read : Reader γ} {f : α → γ} {xs : List α}
    (h : ∀ x∈xs,Returns (write x) read (f x)) :
    Returns (xs.flatMap write) (read.replicate xs.length) (xs.map f) := by
  induction xs with
  | nil => exact fun rest => rfl
  | cons x xs ih =>
    have hfirst := h x (by simp)
    have hrest := ih fun y hy => h y (by simp [hy])
    exact hfirst.bind (q := fun z => (read.replicate xs.length).map fun ys => z::ys)
      (hrest.map fun ys => f x::ys)

theorem replicate {write : α → Bytes} {xs : List α} (h : ∀ x∈xs,Returns (write x) read x) :
    Returns (xs.flatMap write) (read.replicate xs.length) xs := by
  have hmap := replicate_map (f := id) h
  rwa [List.map_id] at hmap

theorem yields {ε : Type} (h : Returns w read x) :
    Yields w (fun b => (.ofRead b (read b) : Outcome ε α)) x := by
  intro rest
  simp [h rest,Outcome.ofRead]

theorem seq {ε : Type} {v : Bytes} {q : α → Bytes → Outcome ε γ} {y : γ} (hv : Returns v read x)
    (hw : Yields w (q x) y) : Yields (v++w) (fun b => .seq b (read b) q) y := by
  intro rest
  have hfirst := hv (w++rest)
  have hsecond := hw rest
  simp only [List.append_assoc,hfirst,Outcome.seq,hsecond,Outcome.after,List.length_append,
    Outcome.done.injEq,true_and]
  omega

end Returns

variable {b a : Bytes} {off : Nat}

theorem Yields.map {ε α γ : Type} {w : Bytes} {decode : Bytes → Outcome ε α} {x : α}
    (h : Yields w decode x) (f : α → γ) : Yields w (fun b => (decode b).map f) (f x) := by
  intro rest
  simp [h rest,Outcome.map]

theorem le_length_flatMap {α : Type} {write : α → Bytes} {k : Nat} (h : ∀ x,k≤(write x).length)
    (xs : List α) : xs.length*k≤(xs.flatMap write).length := by
  induction xs with
  | nil => simp
  | cons x xs ih =>
    have hx := h x
    rw [List.flatMap_cons,List.length_append,List.length_cons,Nat.succ_mul]
    omega

def put16 (x : UInt16) : Bytes := leBytes 2 x.toNat

def put32 (x : UInt32) : Bytes := leBytes 4 x.toNat

def put64 (x : UInt64) : Bytes := leBytes 8 x.toNat

@[simp] theorem length_put16 (x : UInt16) : (put16 x).length=2 := leBytes_length 2 _

@[simp] theorem length_put32 (x : UInt32) : (put32 x).length=4 := leBytes_length 4 _

@[simp] theorem length_put64 (x : UInt64) : (put64 x).length=8 := leBytes_length 8 _

def u16At (b : Bytes) (off : Nat) : UInt16 := UInt16.ofNat (leNat ((b.drop off).take 2))

def u32At (b : Bytes) (off : Nat) : UInt32 := UInt32.ofNat (leNat ((b.drop off).take 4))

theorem drop_past (h : a.length≤off) : (a++b).drop off=b.drop (off-a.length) := by
  rw [List.drop_append,List.drop_of_length_le h,List.nil_append]

theorem u16At_append (h : a.length≤off) : u16At (a++b) off=u16At b (off-a.length) := by
  rw [u16At,u16At,drop_past h]

theorem u32At_append (h : a.length≤off) : u32At (a++b) off=u32At b (off-a.length) := by
  rw [u32At,u32At,drop_past h]

@[simp] theorem u16At_put16 (x : UInt16) (b : Bytes) : u16At (put16 x++b) 0=x := by
  have htake : (put16 x++b).take 2=put16 x := List.take_left' (length_put16 x)
  rw [u16At,List.drop_zero,htake,put16,leNat_leBytes 2 _ x.toNat_lt,UInt16.ofNat_toNat]

@[simp] theorem u32At_put32 (x : UInt32) (b : Bytes) : u32At (put32 x++b) 0=x := by
  have htake : (put32 x++b).take 4=put32 x := List.take_left' (length_put32 x)
  rw [u32At,List.drop_zero,htake,put32,leNat_leBytes 4 _ x.toNat_lt,UInt32.ofNat_toNat]

namespace Reader

variable {α γ : Type}

def bind (r : Reader α) (q : α → Reader γ) : Reader γ := fun b => (r b).bind fun x => q x.1 x.2

def skip (n : Nat) : Reader Unit := (bytes n).map fun _ => ()

def opt (c : Bool) (r : Reader α) (absent : α) : Reader α :=
  if c then r else fun b => some (absent,b)

def each (q : α → Reader γ) : List α → Reader (List γ)
  | [] => fun b => some ([],b)
  | x::xs => (q x).bind fun y => (each q xs).map fun ys => y::ys

theorem bind_eq_some {r : Reader α} {q : α → Reader γ} {b : Bytes} {z : γ×Bytes} :
    r.bind q b=some z ↔ ∃ x b',r b=some (x,b') ∧ q x b'=some z := by
  rw [bind,Option.bind_eq_some_iff,Prod.exists]

theorem map_eq_some {r : Reader α} {f : α → γ} {b : Bytes} {z : γ×Bytes} :
    r.map f b=some z ↔ ∃ x b',r b=some (x,b') ∧ (f x,b')=z := by
  rw [map,Option.map_eq_some_iff,Prod.exists]

end Reader

def putOpt (c : Bool) (w : Bytes) : Bytes := if c then w else []

namespace Returns

variable {α γ : Type}

variable {w : Bytes}

theorem put16 (x : UInt16) : Returns (put16 x) Reader.u16 x := Returns.u16 x

theorem put32 (x : UInt32) : Returns (put32 x) Reader.u32 x := Returns.u32 x

theorem andThen {v : Bytes} {read : Reader α} {q : α → Reader γ} {x : α} {y : γ}
    (hv : Returns v read x) (hw : Returns w (q x) y) : Returns (v++w) (read.bind q) y :=
  hv.bind hw

theorem skip {n : Nat} (h : w.length=n) : Returns w (Reader.skip n) () := by
  subst h
  exact (bytes w).map fun _ => ()

theorem opt {c : Bool} {read : Reader α} {x absent : α} (hthere : c=true → Returns w read x)
    (habsent : c=false → x=absent) : Returns (putOpt c w) (Reader.opt c read absent) x := by
  cases c with
  | false =>
    rw [habsent rfl]
    exact fun rest => rfl
  | true => exact hthere rfl

theorem each {β : Type} {write : β → Bytes} {q : α → Reader γ} {f : β → α} {g : β → γ}
    {zs : List β} (h : ∀ z∈zs,Returns (write z) (q (f z)) (g z)) :
    Returns (zs.flatMap write) (Reader.each q (zs.map f)) (zs.map g) := by
  induction zs with
  | nil => exact fun rest => rfl
  | cons z zs ih =>
    have hfirst := h z (by simp)
    have hrest := ih fun y hy => h y (by simp [hy])
    exact hfirst.andThen (hrest.map fun ys => g z::ys)

end Returns

end HermEX.Framework
