namespace BackendAssembly

inductive RegisterCategory where
  | gpr | fpr
  deriving DecidableEq, Repr

def RegisterCategory.text : RegisterCategory → String
  | gpr => "gpr"
  | fpr => "fpr"

structure Register where
  number : UInt8
  name : String
  category : RegisterCategory
  deriving DecidableEq, Repr

namespace Register

def gpr (number : UInt8) (name : String) : Register :=
  ⟨number, name, .gpr⟩

def fpr (number : UInt8) (name : String) : Register :=
  ⟨number, name, .fpr⟩

def zero := gpr 0 "zero"
def ra := gpr 1 "ra"
def tp := gpr 2 "tp"
def sp := gpr 3 "sp"
def a0 := gpr 4 "a0"
def r21 := gpr 21 "r21"
def fp := gpr 22 "fp"
def s5 := gpr 28 "s5"
def s6 := gpr 29 "s6"
def fa0 := fpr 0 "fa0"

def gprs : List Register :=
  [zero, ra, tp, sp, a0, gpr 5 "a1", gpr 6 "a2", gpr 7 "a3", gpr 8 "a4", gpr 9 "a5", gpr 10 "a6", gpr 11 "a7",
   gpr 12 "t0", gpr 13 "t1", gpr 14 "t2", gpr 15 "t3", gpr 16 "t4", gpr 17 "t5", gpr 18 "t6", gpr 19 "t7",
   gpr 20 "t8", r21, fp, gpr 23 "s0", gpr 24 "s1", gpr 25 "s2", gpr 26 "s3", gpr 27 "s4", s5, s6, gpr 30 "s7",
   gpr 31 "s8"]

def fprs : List Register :=
  [fa0, fpr 1 "fa1", fpr 2 "fa2", fpr 3 "fa3", fpr 4 "fa4", fpr 5 "fa5", fpr 6 "fa6", fpr 7 "fa7", fpr 8 "ft0",
   fpr 9 "ft1", fpr 10 "ft2", fpr 11 "ft3", fpr 12 "ft4", fpr 13 "ft5", fpr 14 "ft6", fpr 15 "ft7", fpr 16 "ft8",
   fpr 17 "ft9", fpr 18 "ft10", fpr 19 "ft11", fpr 20 "ft12", fpr 21 "ft13", fpr 22 "ft14", fpr 23 "ft15",
   fpr 24 "fs0", fpr 25 "fs1", fpr 26 "fs2", fpr 27 "fs3", fpr 28 "fs4", fpr 29 "fs5", fpr 30 "fs6", fpr 31 "fs7"]

def file : List Register :=
  gprs ++ fprs

def ofName? (name : String) : Option Register :=
  file.find? fun r => r.name == name

end Register

end BackendAssembly
