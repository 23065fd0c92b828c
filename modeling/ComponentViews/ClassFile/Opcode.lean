/-!
# Opcodes

The opcodes that generated code uses, by their mnemonics. The short forms of loads
and stores stand for the one of slot 0; those of slots 1 to 3 follow it.
-/

namespace ComponentViews.Opcode

/-! ### Constants -/

def aconstNull : UInt8 := 0x01
def iconst0 : UInt8 := 0x03
def lconst0 : UInt8 := 0x09
def fconst0 : UInt8 := 0x0b
def dconst0 : UInt8 := 0x0e
def bipush : UInt8 := 0x10
def sipush : UInt8 := 0x11
def ldc : UInt8 := 0x12
def ldcW : UInt8 := 0x13
def ldc2W : UInt8 := 0x14

/-! ### Loads and stores -/

def iload : UInt8 := 0x15
def lload : UInt8 := 0x16
def fload : UInt8 := 0x17
def dload : UInt8 := 0x18
def aload : UInt8 := 0x19
def iload0 : UInt8 := 0x1a
def lload0 : UInt8 := 0x1e
def fload0 : UInt8 := 0x22
def dload0 : UInt8 := 0x26
def aload0 : UInt8 := 0x2a
def aaload : UInt8 := 0x32
def istore : UInt8 := 0x36
def lstore : UInt8 := 0x37
def fstore : UInt8 := 0x38
def dstore : UInt8 := 0x39
def astore : UInt8 := 0x3a
def istore0 : UInt8 := 0x3b
def lstore0 : UInt8 := 0x3f
def fstore0 : UInt8 := 0x43
def dstore0 : UInt8 := 0x47
def astore0 : UInt8 := 0x4b
def aastore : UInt8 := 0x53

/-! ### The operand stack -/

def pop : UInt8 := 0x57
def pop2 : UInt8 := 0x58
def dup : UInt8 := 0x59

/-! ### Control -/

def ifeq : UInt8 := 0x99
def ifne : UInt8 := 0x9a
def ifAcmpeq : UInt8 := 0xa5
def ifAcmpne : UInt8 := 0xa6
def goto : UInt8 := 0xa7
def lookupswitch : UInt8 := 0xab
def ireturn : UInt8 := 0xac
def lreturn : UInt8 := 0xad
def freturn : UInt8 := 0xae
def dreturn : UInt8 := 0xaf
def areturn : UInt8 := 0xb0
def vreturn : UInt8 := 0xb1

/-! ### Members, objects and casts -/

def getstatic : UInt8 := 0xb2
def getfield : UInt8 := 0xb4
def putfield : UInt8 := 0xb5
def invokevirtual : UInt8 := 0xb6
def invokespecial : UInt8 := 0xb7
def invokestatic : UInt8 := 0xb8
def invokeinterface : UInt8 := 0xb9
def new : UInt8 := 0xbb
def anewarray : UInt8 := 0xbd
def athrow : UInt8 := 0xbf
def checkcast : UInt8 := 0xc0
def instanceof : UInt8 := 0xc1
def wide : UInt8 := 0xc4
def ifnull : UInt8 := 0xc6
def ifnonnull : UInt8 := 0xc7

/-! ### Classes of opcodes -/

def isReturn (op : UInt8) : Bool := ireturn ≤ op && op ≤ vreturn

/-- Control does not go on after the instruction. -/
def isTerminal (op : UInt8) : Bool :=
  op == goto || op == lookupswitch || op == athrow || isReturn op

/-- Loads and stores with the slot in an operand. -/
def isLocal (op : UInt8) : Bool := (iload ≤ op && op ≤ aload) || (istore ≤ op && op ≤ astore)

/-- Loads and stores with the slot in the opcode. -/
def isShortLocal (op : UInt8) : Bool :=
  (iload0 ≤ op && op ≤ 0x2d) || (istore0 ≤ op && op ≤ 0x4e)

/-- Conditional and unconditional jumps. -/
def isJump (op : UInt8) : Bool :=
  op == ifeq || op == ifne || op == ifAcmpeq || op == ifAcmpne || op == goto || op == ifnull ||
    op == ifnonnull

/-- Instructions that name an entry of the constant pool in two bytes. -/
def isPoolAccess (op : UInt8) : Bool :=
  op == ldcW || op == ldc2W || op == getstatic || op == getfield || op == putfield ||
    op == invokevirtual || op == invokespecial || op == invokestatic || op == new ||
    op == anewarray || op == checkcast || op == instanceof

/-- Instructions without operands that are no loads or stores of variables. -/
def isPlain (op : UInt8) : Bool :=
  (aconstNull ≤ op && op ≤ dconst0) || op == aaload || op == aastore || op == pop ||
    op == pop2 || op == dup || op == athrow || isReturn op

end ComponentViews.Opcode
