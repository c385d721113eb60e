import HermEX.Framework.Bytes
import HermEX.Framework.Runs

namespace HermEX.Wbxml

open Framework

inductive Err where
  | underflow
  | format
  | tooDeep

/-- Code page in the high byte, token in the low one. -/
structure Tag where
  page : UInt8
  token : UInt8

/-- The first of children, data and text counts; `none` is no data. -/
inductive Node where
  | mk (tag : Tag) (children : List Node) (text : Bytes) (data : Option Bytes)

def version : UInt8 := 0x03
def publicID : Nat := 0x01
def charsetUTF8 : Nat := 106
def stringTableLen : Nat := 0
def pageAirSync : UInt8 := 0

def gSwitchPage : UInt8 := 0x00
def gEnd : UInt8 := 0x01
def gStrI : UInt8 := 0x03
def gOpaque : UInt8 := 0xC3

def cbContent : UInt8 := 0x40
def cbAttributes : UInt8 := 0x80
def tokenMask : UInt8 := 0x3F

def mbGroups : Nat → Nat → Bytes → Bytes
  | 0,_,acc => acc
  | k+1,v,acc => if v=0 then acc else mbGroups k (v/128) (UInt8.ofNat (v%128+128)::acc)

def mbUint (v : Nat) : Bytes := mbGroups 4 (v%2^32/128) [UInt8.ofNat (v%128)]

def strI (s : Bytes) : Bytes := gStrI::s.filter (· ≠ 0)++[0]

def switchTo (tag : Tag) (page : UInt8) : Bytes :=
  if tag.page=page then [] else [gSwitchPage,tag.page]

def Node.element : Node → UInt8 → Bytes×UInt8
  | mk tag children text data,page =>
    if children=[] then
      (switchTo tag page++data.elim
        (if text=[] then [tag.token] else (tag.token ||| cbContent)::strI text++[gEnd])
        (fun d => [tag.token ||| cbContent,gOpaque]++mbUint d.length++d++[gEnd]),tag.page)
    else
      let content := elements children tag.page
      (switchTo tag page++(tag.token ||| cbContent)::content.1++[gEnd],content.2)
where
  elements : List Node → UInt8 → Bytes×UInt8
    | [],page => ([],page)
    | c::cs,page =>
      let first := c.element page
      let rest := elements cs first.2
      (first.1++rest.1,rest.2)

def header : Bytes := version::mbUint publicID++mbUint charsetUTF8++mbUint stringTableLen

def marshal (root : Node) : Bytes := header++(root.element pageAirSync).1

def readByte : Bytes → Except Err (UInt8×Bytes)
  | [] => .error .underflow
  | c::b => .ok (c,b)

def readGroups : Nat → Nat → Bytes → Except Err (Nat×Bytes)
  | 0,_,_ => .error .format
  | _+1,_,[] => .error .underflow
  | k+1,v,c::b =>
    let v := (v*128+c.toNat%128)%2^32
    if c<0x80 then .ok (v,b) else readGroups k v b

def readMbUint (b : Bytes) : Except Err (Nat×Bytes) := readGroups 5 0 b

def cstr : Bytes → Except Err (Bytes×Bytes)
  | [] => .error .underflow
  | c::b => if c=0 then .ok ([],b) else (cstr b).map fun r => (c::r.1,r.2)

def take (n : Nat) (b : Bytes) : Except Err (Bytes×Bytes) :=
  if n≤b.length then .ok (b.take n,b.drop n) else .error .underflow

def skipSwitchPages : Bytes → UInt8 → Except Err (UInt8×Bytes)
  | [],_ => .error .underflow
  | [c],page => if c=gSwitchPage then .error .underflow else .ok (page,[c])
  | c::p::b,page => if c=gSwitchPage then skipSwitchPages b p else .ok (page,c::p::b)

def startTag (page : UInt8) (b : Bytes) : Except Err ((Tag×Bool)×Bytes) := do
  let r ← readByte b
  let tok := r.1
  if tok &&& cbAttributes≠0 then .error .format
  else if tok=gEnd ∨ tok=gStrI ∨ tok=gOpaque then .error .format
  else .ok ((⟨page,tok &&& tokenMask⟩,tok &&& cbContent≠0),r.2)

namespace Node

def addText : Node → Bytes → Node
  | mk tag children text data,s => mk tag children (text++s) data

def addData : Node → Bytes → Node
  | mk tag children text data,d => mk tag children text (if d=[] then data else some (data.getD []++d))

def addChild : Node → Node → Node
  | mk tag children text data,c => mk tag (children++[c]) text data

end Node

abbrev Read := Except Err (Node×UInt8×Bytes)

def readContent (child : UInt8 → Bytes → Read) : Nat → Node → UInt8 → Bytes → Read
  | 0,_,_,_ => .error .underflow
  | _+1,_,_,[] => .error .underflow
  | k+1,n,page,c::b =>
    if c=gEnd then .ok (n,page,b)
    else if c=gStrI then do
      let s ← cstr b
      readContent child k (n.addText s.1) page s.2
    else if c=gOpaque then do
      let l ← readMbUint b
      let d ← take l.1 l.2
      readContent child k (n.addData d.1) page d.2
    else do
      let r ← child page (c::b)
      readContent child k (n.addChild r.1) r.2.1 r.2.2

def readElement : Nat → UInt8 → Bytes → Read
  | 0,_,_ => .error .tooDeep
  | levels+1,page,b => do
      let s ← skipSwitchPages b page
      let t ← startTag s.1 s.2
      let n := Node.mk t.1.1 [] [] none
      if t.1.2 then readContent (readElement levels) (t.2.length+1) n s.1 t.2
      else .ok (n,s.1,t.2)

def maxNestingDepth : Nat := 64

def expect (want : Nat) (b : Bytes) : Except Err Bytes := do
  let got ← readMbUint b
  if got.1≠want then .error .format else .ok got.2

def unmarshal (b : Bytes) : Except Err Node := do
  let v ← readByte b
  if v.1≠version then .error .format
  else do
    let b ← expect publicID v.2
    let b ← expect charsetUTF8 b
    let b ← expect stringTableLen b
    let r ← readElement (maxNestingDepth+1) pageAirSync b
    .ok r.1

end HermEX.Wbxml
