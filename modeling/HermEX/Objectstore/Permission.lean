import HermEX.Objectstore.Folder

namespace HermEX.Objectstore

open Framework Mapi

def frightsReadAny : UInt32 := 0x0001
def frightsCreate : UInt32 := 0x0002
def frightsEditOwned : UInt32 := 0x0008
def frightsDeleteOwned : UInt32 := 0x0010
def frightsEditAny : UInt32 := 0x0020
def frightsDeleteAny : UInt32 := 0x0040
def frightsCreateSubfolder : UInt32 := 0x0080
def frightsOwner : UInt32 := 0x0100
def frightsContact : UInt32 := 0x0200
def frightsVisible : UInt32 := 0x0400
def frightsFreeBusySimple : UInt32 := 0x0800
def frightsFreeBusyDetailed : UInt32 := 0x1000

def rightsAll : UInt32 :=
  frightsReadAny|||frightsCreate|||frightsEditOwned|||frightsDeleteOwned|||frightsEditAny|||
    frightsDeleteAny|||frightsCreateSubfolder|||frightsOwner|||frightsVisible

def rightsMaxROP : UInt32 :=
  rightsAll|||frightsContact|||frightsFreeBusySimple|||frightsFreeBusyDetailed

def nocase (s : GoString) : GoString := s.map fun b => if 0x41≤b ∧ b≤0x5A then b+0x20 else b

def defaultMember : GoString := goString "default"

namespace ObjDB

def lookupPermission (db : ObjDB) (fid : Nat) (username : GoString) : Option UInt32 :=
  (db.permissions.find? fun p => p.folderId=fid && nocase p.username=nocase username).map
    PermissionRow.permission

def resolvePermission (db : ObjDB) (isStoreOwner : Bool) (fid : Nat) (username : GoString) :
    UInt32 :=
  if isStoreOwner then rightsMaxROP
  else match db.lookupPermission fid username with
    | some rights => rights
    | none => (db.lookupPermission fid defaultMember).getD 0

end ObjDB
end HermEX.Objectstore
