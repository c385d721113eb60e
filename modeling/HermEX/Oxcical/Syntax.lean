import HermEX.Framework.Components
import HermEX.Framework.Lines
import HermEX.Framework.Table

namespace HermEX.Oxcical

open Framework

abbrev Params := Table (Prod.fst : Bytes×List Bytes → Bytes)

namespace Params

def values (ps : Params) (key : Bytes) : List Bytes := ((ps.get key).map Prod.snd).getD []

def add (ps : Params) (x : Bytes×Bytes) : Params := ps.put (x.1,ps.values x.1++[x.2])

theorem values_add (ps : Params) (x : Bytes×Bytes) (key : Bytes) :
    (ps.add x).values key=if key=x.1 then ps.values key++[x.2] else ps.values key := by
  simp only [add,values,Table.get_put]
  split_ifs with h
  · subst h
    rfl
  · rfl

theorem values_foldl_add (ps : Params) (xs : List (Bytes×Bytes)) (key : Bytes) :
    (xs.foldl add ps).values key = ps.values key++(xs.filter fun x => x.1=key).map Prod.snd := by
  induction xs generalizing ps with
  | nil => simp
  | cons x xs ih =>
    rw [List.foldl_cons,ih,values_add]
    by_cases hx : x.1=key
    · simp [hx]
    · simp [hx,Ne.symm hx]

@[simp] theorem values_empty (key : Bytes) : values .empty key=[] := rfl

end Params

structure Iline where
  name : Bytes
  params : Params
  value : Bytes

def Iline.view (l : Iline) : Bytes×(Bytes → List Bytes)×Bytes := (l.name,l.params.values,l.value)

abbrev Icomp := Comp Bytes Iline

section Split

variable (T : Strings)

def paramPairs (p : Bytes) : List (Bytes×Bytes) :=
  match cut 0x3D p with
  | none => []
  | some x => (split 0x2C x.2).map fun v => (T.toUpper (T.trimSpace x.1),trimQuotes (T.trimSpace v))

def splitLeft (left value : Bytes) : Iline :=
  let parts := split 0x3B left
  ⟨T.trimSpace (parts.headD []),(parts.tail.flatMap (paramPairs T)).foldl Params.add .empty,value⟩

def splitLine (line : Bytes) : Iline :=
  match cutUnquoted 0x3A false line with
  | none => splitLeft T line []
  | some x => splitLeft T x.1 x.2

def contentLine (s : Bytes) : Iline :=
  let l := splitLine T s
  {l with name:=T.toUpper l.name}

def maxNestingDepth : Nat := 20

def token (line : Bytes) : Token Bytes Iline :=
  let l := contentLine T line
  if l.name=lit "BEGIN" then .opened (T.toUpper (T.trimSpace l.value))
  else if l.name=lit "END" then .closed
  else .property l

def contentLines (raw : Bytes) : List Bytes :=
  (unfoldLines (physicalLines raw)).filter fun line => line≠[]

def parseICal (raw : Bytes) : Option Icomp :=
  Builder.build (fun depth => depth ≤ maxNestingDepth) ((contentLines raw).map (token T))

end Split

/-- The order in which parameters are iterated. -/
structure MapOrder where
  arrange : List (Bytes×List Bytes) → List (Bytes×List Bytes)
  perm : ∀ rows,(arrange rows).Perm rows

section Render

variable (order : MapOrder)

def Iline.pairs (l : Iline) : List (Bytes×Bytes) :=
  (order.arrange l.params.rows).flatMap fun row => row.2.map fun v => (row.1,v)

def Iline.left (l : Iline) : Bytes :=
  l.name++(l.pairs order).flatMap fun x => 0x3B::(x.1++0x3D::x.2)

def renderIline (l : Iline) : Bytes := l.left order++0x3A::l.value

def writeComponent : Icomp → List Bytes
  | .mk n ps cs => (lit "BEGIN:" ++ n)::(ps.map (renderIline order)++(all cs++[lit "END:" ++ n]))
where
  all : List Icomp → List Bytes
    | [] => []
    | c::cs => writeComponent c++all cs

def writeLines (lines : List Bytes) : Bytes := terminated (lines.flatMap (foldLine 75))

def renderCalendar (cal : Icomp) : Bytes :=
  writeLines (lit "BEGIN:VCALENDAR" :: (cal.props.map (renderIline order) ++
    (writeComponent.all order cal.comps++[lit "END:VCALENDAR"])))

end Render
end HermEX.Oxcical
