import HermEX.Framework.Snapshots
import HermEX.Framework.Text

namespace HermEX.ActiveSync

open Framework

abbrev Items := Snapshot Bytes Int64

structure CollectionState where
  syncKey : Bytes
  items : Items

def CollectionState.new : CollectionState := ⟨[],.empty⟩

structure DeviceState where
  hierarchyKey : Bytes
  collections : Bytes → CollectionState

def DeviceState.new : DeviceState := ⟨[],fun _ => .new⟩

def DeviceState.setCollection (dev : DeviceState) (id : Bytes) (cs : CollectionState) :
    DeviceState :=
  {dev with collections:=fun c => if c=id then cs else dev.collections c}

abbrev DeviceId := {id : Bytes // ValidUTF8 id}

def DeviceId.ofString (s : String) : DeviceId := ⟨lit s,s.toList,rfl⟩

abbrev AsState := DeviceId → DeviceState

def nextSyncKey (key : Bytes) : Bytes :=
  (parseUint 64 key).elim (formatNat 1) fun n => formatNat ((n+1)%2^64)

end HermEX.ActiveSync
