import HermEX.Mapi.Types

namespace HermEX.Mapi

open Framework

def prDisplayName : PropTag := 0x3001001F
def prComment : PropTag := 0x3004001F
def prContainerClass : PropTag := 0x3613001F
def prCreationTime : PropTag := 0x30070040
def prLastModificationTime : PropTag := 0x30080040
def prHierRev : PropTag := 0x40820040
def prLocalCommitTimeMax : PropTag := 0x670A0040
def prChangeKey : PropTag := 0x65E20102
def prPredecessorChangeList : PropTag := 0x65E30102
def prAttrHidden : PropTag := 0x10F4000B
def prInternetArticleNumber : PropTag := 0x0E230003
def prInternetArticleNumberNext : PropTag := 0x67510003
def prDeletedFolderCount : PropTag := 0x66410003
def prSourceKey : PropTag := 0x65E00102
def prParentSourceKey : PropTag := 0x65E10102
def prMessageSizeExtended : PropTag := 0x0E080014
def prNormalMessageSizeExtended : PropTag := 0x66B30014
def prAssocMessageSizeExtended : PropTag := 0x66B40014

def prMessageClass : PropTag := 0x001A001F
def prSubject : PropTag := 0x0037001F
def prResponseRequested : PropTag := 0x0063000B
def prTransportMessageHeaders : PropTag := 0x007D001F
def prInternetMessageID : PropTag := 0x1035001F
def prInternetReferences : PropTag := 0x1039001F
def prInReplyToID : PropTag := 0x1042001F
def prSmtpAddress : PropTag := 0x39FE001F
def prSenderSmtpAddress : PropTag := 0x5D01001F
def prSentRepresentingSmtpAddress : PropTag := 0x5D02001F
def prRecipientProposed : PropTag := 0x5FE1000B
def prRecipientProposedStartTime : PropTag := 0x5FE30040
def prRecipientProposedEndTime : PropTag := 0x5FE40040
def prRecipientTrackStatusTime : PropTag := 0x5FFB0040
def prRecipientTrackStatus : PropTag := 0x5FFF0003
def prIcalOriginal : PropTag := 0x67750102
def prProcessed : PropTag := 0x7D01000B

abbrev PropertyValues := List (PropTag×Value)

namespace PropertyValues

def get (pv : PropertyValues) (tag : PropTag) : Option Value := pv.lookup tag

def has (pv : PropertyValues) (tag : PropTag) : Bool := (pv.get tag).isSome

def set (tag : PropTag) (v : Value) : PropertyValues → PropertyValues
  | [] => [(tag,v)]
  | x::xs => if x.1=tag then (tag,v)::xs else x::set tag v xs

def setAll (pv props : PropertyValues) : PropertyValues :=
  props.foldl (fun acc x => acc.set x.1 x.2) pv

def stringProp (pv : PropertyValues) (tag : PropTag) : Option GoString :=
  match pv.get tag with
  | some (.string s) => some s
  | _ => none

variable {pv : PropertyValues}

theorem lookup_cons (a t : PropTag) (b : Value) (xs : PropertyValues) :
    List.lookup t ((a,b)::xs)=if t=a then some b else List.lookup t xs := by
  by_cases h : t=a
  · simp [h]
  · have hb : (t==a)=false := by simpa using h
    rw [List.lookup_cons,hb,if_neg h]

theorem get_set (pv : PropertyValues) (tag t : PropTag) (v : Value) :
    (set tag v pv).get t=if t=tag then some v else pv.get t := by
  induction pv with
  | nil => simp [set,get,lookup_cons]
  | cons x xs ih =>
    obtain ⟨a,b⟩ := x
    simp only [get] at ih
    by_cases ha : a=tag
    · simp only [set,get,ha,if_true,lookup_cons]
      split_ifs <;> rfl
    · by_cases h : t=a
      · simp [set,get,ha,h]
      · simp [set,get,ha,lookup_cons,h,ih]

theorem get_setAll (pv props : PropertyValues) (t : PropTag) :
    (pv.setAll props).get t=((props.reverse.lookup t).or (pv.get t)) := by
  induction props generalizing pv with
  | nil => simp [setAll]
  | cons x xs ih =>
    obtain ⟨a,b⟩ := x
    have hs : setAll pv ((a,b)::xs)=setAll (set a b pv) xs := rfl
    rw [hs,ih,get_set,List.reverse_cons,List.lookup_append]
    by_cases h : t=a
    · simp [h]
    · simp [h,lookup_cons]

def Distinct (pv : PropertyValues) : Prop := (pv.map Prod.fst).Nodup

theorem mem_keys_set {tag t : PropTag} {v : Value} :
    t∈(set tag v pv).map Prod.fst ↔ t=tag ∨ t∈pv.map Prod.fst := by
  induction pv with
  | nil => simp [set]
  | cons x xs ih =>
    simp only [set]
    split_ifs with hx
    · simp [← hx]
    · simp only [List.map_cons,List.mem_cons]
      tauto

theorem Distinct.set (h : Distinct pv) (tag : PropTag) (v : Value) : Distinct (set tag v pv) := by
  induction pv with
  | nil => simp [Distinct,PropertyValues.set]
  | cons x xs ih =>
    obtain ⟨hx,hxs⟩ := List.nodup_cons.mp h
    simp only [PropertyValues.set]
    split_ifs with he
    · simp only [← he]
      exact h
    · refine List.nodup_cons.mpr ⟨?_,ih hxs⟩
      rw [mem_keys_set,not_or]
      exact ⟨he,hx⟩

theorem Distinct.setAll (h : Distinct pv) (props : PropertyValues) :
    Distinct (pv.setAll props) := by
  induction props generalizing pv with
  | nil => exact h
  | cons x xs ih => exact ih (h.set x.1 x.2)

theorem Distinct.reverse_lookup (h : Distinct pv) (t : PropTag) :
    pv.reverse.lookup t=pv.get t := by
  induction pv with
  | nil => rfl
  | cons x xs ih =>
    obtain ⟨hx,hxs⟩ := List.nodup_cons.mp h
    rw [List.reverse_cons,List.lookup_append,ih hxs,get,get,lookup_cons,lookup_cons]
    split_ifs with ht
    · have hnone : xs.lookup t=none := by
        rw [List.lookup_eq_none_iff]
        intro y hy
        have hne : y.1≠t := by
          rintro rfl
          exact hx (ht ▸ List.mem_map.mpr ⟨y,hy,rfl⟩)
        simpa using fun he => hne he.symm
      simp [hnone]
    · simp

end PropertyValues

def storable (typ : PropType) : Value → Bool
  | .bool _ => typ=ptBoolean
  | .int16 _ => typ=ptShort
  | .int32 _ => typ=ptLong
  | .uint32 _ => typ=ptError
  | .int64 _ => typ=ptI8 || typ=ptCurrency
  | .uint64 _ => typ=ptSysTime
  | .float32 _ => typ=ptFloat
  | .float64 _ => typ=ptDouble || typ=ptAppTime
  | .string _ => typ=ptString8 || typ=ptUnicode
  | .bytes _ => typ=ptBinary || typ=ptObject
  | .guid _ => typ=ptCLSID
  | .int16s _ => typ=ptMvShort
  | .int32s _ => typ=ptMvLong
  | .float32s _ => typ=ptMvFloat
  | .float64s _ => typ=ptMvDouble || typ=ptMvAppTime
  | .int64s _ => typ=ptMvI8 || typ=ptMvCurrency
  | .uint64s _ => typ=ptMvSysTime
  | .guids _ => typ=ptMvCLSID
  | .strings _ => typ=ptMvString8 || typ=ptMvUnicode
  | .bytess _ => typ=ptMvBinary

def valueToGC (v : Nat) : Bytes := (leBytes 6 v).reverse

def gcToValue (gc : Bytes) : Nat := leNat gc.reverse

def changeKey (replica : GUID) (cn : Nat) : Bytes := replica.flat++valueToGC cn

def predecessorChangeList (replica : GUID) (cn : Nat) : Bytes := 22::changeKey replica cn

end HermEX.Mapi
