import HermEX.ActiveSync.Sync
import HermEX.Framework.Copies

namespace HermEX.ActiveSync

open Framework

abbrev Step := Access DeviceId Request

abbrev Serving := Shared DeviceId DeviceState

def Serving.step : Serving → Step → Serving := Shared.step Request.apply

def Serving.start (state : AsState) : Serving := Shared.start state

/-- The copy has the other devices' states as stored now. -/
def Serving.Current : Serving → Step → Prop := Shared.Current Request.apply

/-- Each device has the state its requests leave just when every save meets the others' as loaded.
-/
theorem devices_isolated_iff (state : AsState) (xs : List Step) :
    (∀ ys,ys <+: xs → ∀ device,(runSteps Serving.step (.start state) ys).stored device =
        (runSteps Serving.step (.start state) (ys.filter fun x => x.owner = device)).stored device) ↔
      Meets Serving.step Serving.Current (.start state) xs :=
  Shared.apart_iff (Shared.Apart.start state) xs

def primeInbox : Request :=
  .sync [(⟨formatNat 13,formatNat 0,[],[]⟩,⟨.empty,⟨[],none,none,fun _ => none⟩⟩)]

/-- Two devices prime at once: the first to save loses its key. -/
theorem prime_overwritten :
    let phone := DeviceId.ofString "phone"
    let tablet := DeviceId.ofString "tablet"
    let xs : List Step := [.load phone,.load tablet,.save tablet primeInbox,.save phone primeInbox]
    let syncKey (xs : List Step) := (((runSteps Serving.step (.start fun _ => .new) xs).stored
      tablet).collections (formatNat 13)).syncKey
    syncKey xs = [] ∧ syncKey (xs.filter fun x => x.owner = tablet) = formatNat 1 := by
  decide

end HermEX.ActiveSync
