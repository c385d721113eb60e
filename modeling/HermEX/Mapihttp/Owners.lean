import HermEX.Framework.Owned
import HermEX.Framework.Runs
import HermEX.Mapihttp.Sessions

namespace HermEX.Mapihttp

open Framework Mapi Rpchttp

section Spared

variable {ρ : Type}

def owners (touched : List Touch) : List String := touched.map Touch.owner

def RpcSpares (touched : List Touch) (e e' : EMSMDB ρ) : Prop :=
  Spares EmsmdbSession.user EmsmdbSession.rop (owners touched) e.sessions e'.sessions

def HttpSpares (touched : List Touch) (s s' : SessionStore ρ) : Prop :=
  Spares SessionContext.user SessionContext.ropSess (owners touched) s.m s'.m

variable (e : EMSMDB ρ) {now : Nat} (R : RopLayer ρ) {sid : String} {s : SessionStore ρ}

theorem updateSession_keeps {g : GUID} {f : EmsmdbSession ρ → EmsmdbSession ρ}
    {hf : ∀ s,(f s).guid=s.guid} (hu : ∀ s,(f s).user=s.user) (hr : ∀ s,(f s).rop=s.rop)
    (e : EMSMDB ρ) (touched : List Touch) : RpcSpares touched e (e.updateSession g f hf) :=
  Spares.updateWhere hf hu fun s _ _ _ => hr s

theorem lookup_ok {e e' : EMSMDB ρ} {g : GUID} {o : Option (EmsmdbSession ρ)}
    (h : e.lookup g now=(o,e')) :
    e.sessions.get g=o ∧ (∀ touched,RpcSpares touched e e') ∧
    ∀ s∈o,∀ r∈e'.sessions,r.guid=s.guid → r.user=s.user := by
  obtain ⟨rfl,rfl⟩ := Prod.mk.inj h
  refine ⟨rfl,fun touched => ?_,?_⟩
  · refine updateSession_keeps ?_ ?_ e touched <;> exact fun _ => rfl
  · intro s hs
    refine owner_updateWhere ?_ ?_ (Table.get_eq_some.mp hs).1 <;> exact fun _ => rfl

theorem touched_get {α κ : Type} [DecidableEq κ] {key : α → κ} {user : α → String}
    {t : Table key} {r : α} {k : κ} (hr : r∈t) (hk : key r=k) :
    user r∈owners ((t.get k).toList.map fun old => ⟨.destroys,user old⟩) := by
  have hget : t.get k=some r := by
    rw [← hk]
    exact Table.get_key hr
  simp only [owners,List.map_map,List.mem_map,Option.mem_toList]
  exact ⟨r,hget,rfl⟩

theorem connectEx_spares (e : EMSMDB ρ) (c : Caller) (stub : Bytes) :
    RpcSpares (e.connectEx R c stub).2.2 e (e.connectEx R c stub).2.1 := by
  unfold EMSMDB.connectEx
  split
  · exact Spares.refl _ _
  exact Spares.put fun r hr hg => touched_get hr hg

theorem rpcExt2_spares (e : EMSMDB ρ) (c : Caller) (stub : Bytes) :
    RpcSpares (e.rpcExt2 R c stub).2.2 e (e.rpcExt2 R c stub).2.1 := by
  unfold EMSMDB.rpcExt2
  split
  · exact Spares.refl _ _
  split
  · rename_i e' he
    exact (lookup_ok he).2.1 _
  · rename_i s e' he
    obtain ⟨-,hlook,howner⟩ := lookup_ok he
    split_ifs
    · exact hlook _
    · split
      · exact hlook _
      · apply (hlook _).trans
        refine Spares.updateKey ?_ ?_ (howner s rfl) (by simp [owners]) <;> exact fun _ => rfl

theorem asyncConnectEx_spares (c : Caller) (stub : Bytes) :
    RpcSpares (e.asyncConnectEx c stub).2.2 e (e.asyncConnectEx c stub).2.1 := by
  unfold EMSMDB.asyncConnectEx
  split
  · exact Spares.refl _ _
  · split <;> exact (lookup_ok (by assumption)).2.1 _

theorem disconnect_spares (stub : Bytes) :
    RpcSpares (e.disconnect stub).2.2 e (e.disconnect stub).2.1 := by
  unfold EMSMDB.disconnect
  split
  · exact Spares.refl _ _
  exact Spares.deleteWhere fun r hr hg => touched_get hr (of_decide_eq_true hg)

theorem asyncWaitEx_spares (e : EMSMDB ρ) (c : Caller) (stub : Bytes) :
    RpcSpares (e.asyncWaitEx R c stub).2.2 e (e.asyncWaitEx R c stub).2.1 := by
  unfold EMSMDB.asyncWaitEx
  split
  · exact Spares.refl _ _
  split
  · rename_i e' he
    exact (lookup_ok he).2.1 _
  · rename_i s e' he
    obtain ⟨-,hlook,howner⟩ := lookup_ok he
    by_cases hu : s.user≠c.user
    · rw [if_pos hu]
      exact hlook _
    · cases hp : R.pollForChange s.rop with
      | mk pending rop =>
      have hpoll : RpcSpares [⟨.waits,s.user⟩] e (e'.updateSession s.guid
          (fun x => {x with rop:=rop}) fun _ => rfl) := by
        apply (hlook _).trans
        refine Spares.updateKey ?_ ?_ (howner s rfl) (by simp [owners]) <;> exact fun _ => rfl
      simp only
      split_ifs
      · exact hpoll
      · exact hpoll
      · apply hpoll.trans
        refine updateSession_keeps ?_ ?_ _ _ <;> exact fun _ => rfl

theorem handle_spares (e : EMSMDB ρ) (c : Caller) (opnum : UInt16) (stub : Bytes) :
    RpcSpares (e.handle R c opnum stub).2.2 e (e.handle R c opnum stub).2.1 := by
  unfold EMSMDB.handle
  split_ifs
  · exact connectEx_spares R e c stub
  · exact rpcExt2_spares R e c stub
  · exact asyncConnectEx_spares e c stub
  · exact disconnect_spares e stub
  · exact Spares.refl _ _

theorem asyncHandle_spares (e : EMSMDB ρ) (c : Caller) (opnum : UInt16) (stub : Bytes) :
    RpcSpares (e.asyncHandle R c opnum stub).2.2 e (e.asyncHandle R c opnum stub).2.1 := by
  unfold EMSMDB.asyncHandle
  split_ifs
  · exact asyncWaitEx_spares R e c stub
  · exact Spares.refl _ _

theorem update_keeps {f : SessionContext ρ → SessionContext ρ} {hf : ∀ c,(f c).sid=c.sid}
    (hu : ∀ c,(f c).user=c.user) (hr : ∀ c,(f c).ropSess=c.ropSess) (s : SessionStore ρ)
    (touched : List Touch) : HttpSpares touched s (s.update sid f hf) :=
  Spares.updateWhere hf hu fun c _ _ _ => hr c

theorem execute_ok {s' : SessionStore ρ} {seq user newSeq : String} {c : SessionContext ρ}
    (h : s.execute sid seq user newSeq now=.ok (c,s')) :
    c.user=user ∧ (∀ touched,HttpSpares touched s s') ∧
    ∀ r∈s'.m,r.sid=c.sid → r.user=c.user := by
  unfold SessionStore.execute at h
  split at h
  · cases h
  rename_i c' hget
  split_ifs at h with hold huser hseq
  obtain ⟨rfl,rfl⟩ := Prod.mk.inj (Except.ok.inj h)
  refine ⟨not_not.mp huser,fun touched => ?_,?_⟩
  · refine update_keeps ?_ ?_ s touched <;> exact fun _ => rfl
  · refine owner_updateWhere ?_ ?_ (Table.get_eq_some.mp hget).1 <;> exact fun _ => rfl

theorem httpLookup_ok {s' : SessionStore ρ} {user : String} {c : SessionContext ρ}
    (h : s.lookup sid user now=some (c,s')) :
    c.user=user ∧ (∀ touched,HttpSpares touched s s') ∧
    ∀ r∈s'.m,r.sid=c.sid → r.user=c.user := by
  unfold SessionStore.lookup at h
  split at h
  · cases h
  rename_i c' hget
  split_ifs at h with hold
  obtain ⟨rfl,rfl⟩ := Prod.mk.inj (Option.some.inj h)
  refine ⟨not_not.mp fun hu => hold (.inl hu),fun touched => ?_,?_⟩
  · refine update_keeps ?_ ?_ s touched <;> exact fun _ => rfl
  · refine owner_updateWhere ?_ ?_ (Table.get_eq_some.mp hget).1 <;> exact fun _ => rfl

theorem emsDispatch_spares (s : SessionStore ρ) (c : HttpCaller) (req : HttpRequest) :
    HttpSpares (emsDispatch R s c req).2.2 s (emsDispatch R s c req).2.1 := by
  cases req with
  | connect body sid sequence =>
    simp only [emsDispatch,emsConnect]
    split
    · exact Spares.refl _ _
    · exact Spares.put fun r hr hsid => touched_get hr hsid
  | execute sid seq body newSeq =>
    simp only [emsDispatch,emsExecute]
    split
    · split
      · exact Spares.refl _ _
      · rename_i ctx s' he
        obtain ⟨-,hlook,howner⟩ := execute_ok he
        split
        · exact hlook _
        · split_ifs
          · exact hlook _
          · split
            · exact hlook _
            · apply (hlook _).trans
              refine Spares.updateKey ?_ ?_ howner (by simp [owners]) <;> exact fun _ => rfl
    · exact Spares.refl _ _
  | disconnect sid =>
    simp only [emsDispatch,emsDisconnect]
    split
    · exact Spares.refl _ _
    · refine Spares.deleteWhere ?_
      intro r hr hsid
      exact touched_get hr (by simpa using hsid)
  | notificationWait sid polls =>
    simp only [emsDispatch,emsNotificationWait]
    split
    · exact Spares.refl _ _
    split
    · exact Spares.refl _ _
    · rename_i ctx s' he
      obtain ⟨-,hlook,howner⟩ := httpLookup_ok he
      apply (hlook _).trans
      refine Spares.updateKey ?_ ?_ howner (by simp [owners]) <;> exact fun _ => rfl

end Spared

section Owners

variable {ρ : Type}

/-- The session tables, and who touched whose session. -/
structure World (ρ : Type) where
  rpc : EMSMDB ρ
  http : SessionStore ρ
  log : List (String×Touch)

/-- The authenticated requests, and the server's own steps. -/
inductive ServerStep where
  | emsmdb (c : Caller) (opnum : UInt16) (stub : Bytes)
  | asyncEmsmdb (c : Caller) (opnum : UInt16) (stub : Bytes)
  | mapihttp (c : HttpCaller) (req : HttpRequest)
  | pollParked (g : GUID) (ends : Bool)
  | sweepRpc (now ttl : Nat)
  | sweepHttp (now ttl : Nat)

def ServerStep.user : ServerStep → Option String
  | .emsmdb c _ _ | .asyncEmsmdb c _ _ => some c.user
  | .mapihttp c _ => some c.user
  | .pollParked .. | .sweepRpc .. | .sweepHttp .. => none

namespace World

def start (ρ : Type) (maxAge : Nat) : World ρ := ⟨.new ρ,.new ρ maxAge,[]⟩

def step (R : RopLayer ρ) (w : World ρ) : ServerStep → World ρ
  | .emsmdb c opnum stub =>
    let (_,rpc,touched) := w.rpc.handle R c opnum stub
    {w with rpc:=rpc,log:=w.log++touched.map fun t => (c.user,t)}
  | .asyncEmsmdb c opnum stub =>
    let (_,rpc,touched) := w.rpc.asyncHandle R c opnum stub
    {w with rpc:=rpc,log:=w.log++touched.map fun t => (c.user,t)}
  | .mapihttp c req =>
    let (_,http,touched) := emsDispatch R w.http c req
    {w with http:=http,log:=w.log++touched.map fun t => (c.user,t)}
  | .pollParked g ends => {w with rpc:=w.rpc.pollParked R g ends}
  | .sweepRpc now ttl => {w with rpc:=w.rpc.sweep now ttl}
  | .sweepHttp now ttl => {w with http:=w.http.sweep now ttl}

/-- An unchecked call names no session of another, nor does a minted handle. -/
def NamesOwn (w : World ρ) : ServerStep → Prop
  | .emsmdb c opnum stub =>
    (opnum=10 → ∀ s∈w.rpc.sessions.get w.rpc.mintHandle.1.guid,s.user=c.user) ∧
    (opnum=11 → ∀ r∈(pullRpcExt2 stub).toOption,∀ s∈w.rpc.sessions.get r.cxh.guid,s.user=c.user) ∧
    (opnum=1 → ∀ h∈(Ndr.runPull pullCtxHandle stub).toOption,
      ∀ s∈w.rpc.sessions.get h.guid,s.user=c.user)
  | .mapihttp c (.connect _ sid _) => ∀ s∈w.http.m.get sid,s.user=c.user
  | .mapihttp c (.disconnect sid) => ∀ x∈sid,∀ s∈w.http.m.get x,s.user=c.user
  | _ => True

instance (w : World ρ) : ∀ a,Decidable (w.NamesOwn a)
  | .emsmdb .. => inferInstanceAs (Decidable (_ ∧ _ ∧ _))
  | .mapihttp _ (.connect _ sid _) => inferInstanceAs (Decidable (∀ s∈w.http.m.get sid,_))
  | .mapihttp _ (.disconnect sid) => inferInstanceAs (Decidable (∀ x∈sid,_))
  | .mapihttp _ (.execute ..) | .mapihttp _ (.notificationWait ..) | .asyncEmsmdb ..
  | .pollParked .. | .sweepRpc .. | .sweepHttp .. => isTrue trivial

variable {R : RopLayer ρ}

theorem handle_owner {w : World ρ} {c : Caller} {opnum : UInt16} {stub : Bytes}
    (h : w.NamesOwn (.emsmdb c opnum stub)) :
    ∀ t∈(w.rpc.handle R c opnum stub).2.2,t.owner=c.user := by
  obtain ⟨hconn,hext,hdisc⟩ := h
  unfold EMSMDB.handle
  split_ifs with h10 h11 h14 h1
  · unfold EMSMDB.connectEx
    split
    · intro t ht
      cases ht
    · intro t ht
      obtain ⟨s,hs,rfl⟩ := List.mem_map.mp ht
      exact hconn h10 s (Option.mem_toList.mp hs)
  · unfold EMSMDB.rpcExt2
    split
    · intro t ht
      cases ht
    · rename_i r hr
      have hown := hext h11 r (by simp [hr,Except.toOption])
      split
      · intro t ht
        cases ht
      · rename_i s e' he
        have hs := hown s (lookup_ok he).1
        split_ifs
        · intro t ht
          cases ht
        · split
          · intro t ht
            cases ht
          · intro t ht
            rw [List.mem_singleton.mp ht]
            exact hs
  · unfold EMSMDB.asyncConnectEx
    intro t ht
    split at ht
    · cases ht
    · split at ht <;> cases ht
  · unfold EMSMDB.disconnect
    split
    · intro t ht
      cases ht
    · rename_i g hg
      intro t ht
      obtain ⟨s,hs,rfl⟩ := List.mem_map.mp ht
      exact hdisc h1 g (by simp [hg,Except.toOption]) s (Option.mem_toList.mp hs)
  · intro t ht
    cases ht

theorem asyncHandle_owner {e : EMSMDB ρ} {c : Caller} {opnum : UInt16} {stub : Bytes} :
    ∀ t∈(e.asyncHandle R c opnum stub).2.2,t.owner=c.user := by
  unfold EMSMDB.asyncHandle
  split_ifs
  · unfold EMSMDB.asyncWaitEx
    intro t ht
    split at ht
    · cases ht
    split at ht
    · cases ht
    rename_i s e' he
    by_cases hu : s.user≠c.user
    · rw [if_pos hu] at ht
      cases ht
    · have ht' : t∈[⟨.waits,s.user⟩] := by
        simp only at ht
        split_ifs at ht <;> exact ht
      rw [List.mem_singleton.mp ht']
      exact not_not.mp hu
  · intro t ht
    cases ht

theorem emsDispatch_owner {w : World ρ} {c : HttpCaller} {req : HttpRequest}
    (h : w.NamesOwn (.mapihttp c req)) : ∀ t∈(emsDispatch R w.http c req).2.2,t.owner=c.user := by
  intro t ht
  cases req with
  | connect body sid sequence =>
    simp only [emsDispatch,emsConnect] at ht
    split at ht
    · cases ht
    · obtain ⟨s,hs,rfl⟩ := List.mem_map.mp ht
      exact h s (Option.mem_toList.mp hs)
  | execute sid seq body newSeq =>
    simp only [emsDispatch,emsExecute] at ht
    split at ht
    · split at ht
      · cases ht
      · rename_i ctx s' he
        have hu := (execute_ok he).1
        split at ht
        · cases ht
        split_ifs at ht
        · cases ht
        · split at ht
          · cases ht
          · rw [List.mem_singleton.mp ht]
            exact hu
    · cases ht
  | disconnect sid =>
    simp only [emsDispatch,emsDisconnect] at ht
    split at ht
    · cases ht
    · obtain ⟨s,hs,rfl⟩ := List.mem_map.mp ht
      exact h _ rfl s (Option.mem_toList.mp hs)
  | notificationWait sid polls =>
    simp only [emsDispatch,emsNotificationWait] at ht
    split at ht
    · cases ht
    split at ht
    · cases ht
    · rename_i ctx s' he
      rw [List.mem_singleton.mp ht]
      exact (httpLookup_ok he).1

def Spared (us : List String) (w w' : World ρ) : Prop :=
  Spares EmsmdbSession.user EmsmdbSession.rop us w.rpc.sessions w'.rpc.sessions ∧
  Spares SessionContext.user SessionContext.ropSess us w.http.m w'.http.m

theorem step_spares (R : RopLayer ρ) (w : World ρ) (a : ServerStep) (u : String)
    (hu : a.user=some u) (hc : w.NamesOwn a) : w.Spared [u] (w.step R a) := by
  have hlist : ∀ {touched : List Touch},(∀ t∈touched,t.owner=u) → ∀ o∈owners touched,o∈[u] := by
    intro touched ht o ho
    obtain ⟨t,hmem,rfl⟩ := List.mem_map.mp ho
    exact List.mem_singleton.mpr (ht t hmem)
  cases a with
  | emsmdb c opnum stub =>
    cases hu
    exact ⟨(handle_spares R w.rpc c opnum stub).mono (hlist (handle_owner hc)),Spares.refl _ _⟩
  | asyncEmsmdb c opnum stub =>
    cases hu
    exact ⟨(asyncHandle_spares R w.rpc c opnum stub).mono (hlist asyncHandle_owner),
      Spares.refl _ _⟩
  | mapihttp c req =>
    cases hu
    exact ⟨Spares.refl _ _,(emsDispatch_spares R w.http c req).mono (hlist (emsDispatch_owner hc))⟩
  | pollParked g ends => cases hu
  | sweepRpc now ttl => cases hu
  | sweepHttp now ttl => cases hu

def OwnUses (w : World ρ) : Prop := ∀ e∈w.log,e.2.owner=e.1

theorem log_append {user : String} {log : List (String×Touch)} {touched : List Touch}
    (h : ∀ e∈log,e.2.owner=e.1) (ht : ∀ t∈touched,t.owner=user) :
    ∀ e∈log++touched.map fun t => (user,t),e.2.owner=e.1 := by
  intro e he
  rcases List.mem_append.mp he with he | he
  · exact h e he
  · obtain ⟨t,hmem,rfl⟩ := List.mem_map.mp he
    exact ht t hmem

theorem step_ownUses (R : RopLayer ρ) (w : World ρ) (a : ServerStep) (h : w.OwnUses)
    (hc : w.NamesOwn a) : (w.step R a).OwnUses := by
  cases a with
  | emsmdb c opnum stub => exact log_append h (handle_owner hc)
  | asyncEmsmdb c opnum stub => exact log_append h asyncHandle_owner
  | mapihttp c req => exact log_append h (emsDispatch_owner hc)
  | pollParked g ends => exact h
  | sweepRpc now ttl => exact h
  | sweepHttp now ttl => exact h

end World

end Owners

def countRops : RopLayer Nat :=
  ⟨fun _ _ _ => 0,decodeExecute fun _ _ => none,fun n rops handles => ((rops,handles),n+1),
    encodeExecute,fun n => (false,n)⟩

def connectStub : Bytes := List.replicate 56 0

def firstHandle : Bytes := [0,0,0,0,1,0,0,0,0,0,0,0,0x68,0x65,0x72,0x6D,0x65,0x78,0,0]

def firstExecute : Bytes :=
  firstHandle++put32 0++put32 17++encodeExecute [1,0,0] [1]++[0,0,0]++put32 17++put32 256++put32 0

def owner : Caller := ⟨"owner","owner",false,0⟩

def stranger : Caller := ⟨"stranger","stranger",false,0⟩

end HermEX.Mapihttp
