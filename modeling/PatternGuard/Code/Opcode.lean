/-!
# Opcodes

The instruction set of the Java virtual machine. An opcode is one byte; its form says how the bytes
after it are laid out.

Defines: `Opcode` in the order of the bytes, `Opcode.byte` and its partial inverse `Opcode.ofByte?`,
mnemonics, forms, and the classes of opcodes that matter for moving code.
Proves: `ofByte?_byte` and `byte_of_ofByte?`, that the two conversions undo each other.
-/

set_option autoImplicit false

namespace PatternGuard

/-- How the operand bytes after an opcode are laid out. -/
inductive OperandForm where
  | none
  /-- One immediate byte. -/
  | byte
  /-- Two immediate bytes. -/
  | short
  /-- A local variable in one byte. -/
  | slot
  /-- A constant pool index in one byte. -/
  | constantByte
  /-- A constant pool index in two bytes. -/
  | constant
  /-- A local variable and a signed increment, one byte each. -/
  | increment
  /-- A signed 16-bit branch displacement. -/
  | branch
  /-- A signed 32-bit branch displacement. -/
  | branchWide
  /-- A constant pool index, an argument count and a zero byte. -/
  | invokeInterface
  /-- A constant pool index and two zero bytes. -/
  | invokeDynamic
  /-- A constant pool index and a number of dimensions. -/
  | multiArray
  | tableSwitch
  | lookupSwitch
  /-- The opcode of a local variable instruction and its widened operands. -/
  | wide
deriving DecidableEq, Repr

/-- The number of operand bytes, for the forms that have a fixed one. -/
def OperandForm.fixedLength : OperandForm → Option Nat
  | none => some 0
  | byte | slot | constantByte => some 1
  | short | constant | increment | branch => some 2
  | multiArray => some 3
  | branchWide | invokeInterface | invokeDynamic => some 4
  | tableSwitch | lookupSwitch | wide => Option.none

/-- The instructions, in the order of their bytes. -/
inductive Opcode where
  | nop | aconst_null | iconst_m1 | iconst_0 | iconst_1 | iconst_2 | iconst_3 | iconst_4
  | iconst_5 | lconst_0 | lconst_1 | fconst_0 | fconst_1 | fconst_2 | dconst_0 | dconst_1
  | bipush | sipush | ldc | ldc_w | ldc2_w | iload | lload | fload | dload | aload | iload_0
  | iload_1 | iload_2 | iload_3 | lload_0 | lload_1 | lload_2 | lload_3 | fload_0 | fload_1
  | fload_2 | fload_3 | dload_0 | dload_1 | dload_2 | dload_3 | aload_0 | aload_1 | aload_2
  | aload_3 | iaload | laload | faload | daload | aaload | baload | caload | saload | istore
  | lstore | fstore | dstore | astore | istore_0 | istore_1 | istore_2 | istore_3 | lstore_0
  | lstore_1 | lstore_2 | lstore_3 | fstore_0 | fstore_1 | fstore_2 | fstore_3 | dstore_0
  | dstore_1 | dstore_2 | dstore_3 | astore_0 | astore_1 | astore_2 | astore_3 | iastore
  | lastore | fastore | dastore | aastore | bastore | castore | sastore | pop | pop2 | dup
  | dup_x1 | dup_x2 | dup2 | dup2_x1 | dup2_x2 | swap | iadd | ladd | fadd | dadd | isub | lsub
  | fsub | dsub | imul | lmul | fmul | dmul | idiv | ldiv | fdiv | ddiv | irem | lrem | frem
  | drem | ineg | lneg | fneg | dneg | ishl | lshl | ishr | lshr | iushr | lushr | iand | land
  | ior | lor | ixor | lxor | iinc | i2l | i2f | i2d | l2i | l2f | l2d | f2i | f2l | f2d | d2i
  | d2l | d2f | i2b | i2c | i2s | lcmp | fcmpl | fcmpg | dcmpl | dcmpg | ifeq | ifne | iflt
  | ifge | ifgt | ifle | if_icmpeq | if_icmpne | if_icmplt | if_icmpge | if_icmpgt | if_icmple
  | if_acmpeq | if_acmpne | goto | jsr | ret | tableswitch | lookupswitch | ireturn | lreturn
  | freturn | dreturn | areturn | return_void | getstatic | putstatic | getfield | putfield
  | invokevirtual | invokespecial | invokestatic | invokeinterface | invokedynamic | new_object
  | newarray | anewarray | arraylength | athrow | checkcast | instance_of | monitorenter
  | monitorexit | wide | multianewarray | ifnull | ifnonnull | goto_w | jsr_w
deriving DecidableEq, Repr

namespace Opcode

/-- Every opcode, at the position of its byte. -/
def all : List Opcode :=
  [.nop, .aconst_null, .iconst_m1, .iconst_0, .iconst_1, .iconst_2, .iconst_3, .iconst_4,
    .iconst_5, .lconst_0, .lconst_1, .fconst_0, .fconst_1, .fconst_2, .dconst_0, .dconst_1,
    .bipush, .sipush, .ldc, .ldc_w, .ldc2_w, .iload, .lload, .fload, .dload, .aload, .iload_0,
    .iload_1, .iload_2, .iload_3, .lload_0, .lload_1, .lload_2, .lload_3, .fload_0, .fload_1,
    .fload_2, .fload_3, .dload_0, .dload_1, .dload_2, .dload_3, .aload_0, .aload_1, .aload_2,
    .aload_3, .iaload, .laload, .faload, .daload, .aaload, .baload, .caload, .saload, .istore,
    .lstore, .fstore, .dstore, .astore, .istore_0, .istore_1, .istore_2, .istore_3, .lstore_0,
    .lstore_1, .lstore_2, .lstore_3, .fstore_0, .fstore_1, .fstore_2, .fstore_3, .dstore_0,
    .dstore_1, .dstore_2, .dstore_3, .astore_0, .astore_1, .astore_2, .astore_3, .iastore,
    .lastore, .fastore, .dastore, .aastore, .bastore, .castore, .sastore, .pop, .pop2, .dup,
    .dup_x1, .dup_x2, .dup2, .dup2_x1, .dup2_x2, .swap, .iadd, .ladd, .fadd, .dadd, .isub,
    .lsub, .fsub, .dsub, .imul, .lmul, .fmul, .dmul, .idiv, .ldiv, .fdiv, .ddiv, .irem, .lrem,
    .frem, .drem, .ineg, .lneg, .fneg, .dneg, .ishl, .lshl, .ishr, .lshr, .iushr, .lushr,
    .iand, .land, .ior, .lor, .ixor, .lxor, .iinc, .i2l, .i2f, .i2d, .l2i, .l2f, .l2d, .f2i,
    .f2l, .f2d, .d2i, .d2l, .d2f, .i2b, .i2c, .i2s, .lcmp, .fcmpl, .fcmpg, .dcmpl, .dcmpg,
    .ifeq, .ifne, .iflt, .ifge, .ifgt, .ifle, .if_icmpeq, .if_icmpne, .if_icmplt, .if_icmpge,
    .if_icmpgt, .if_icmple, .if_acmpeq, .if_acmpne, .goto, .jsr, .ret, .tableswitch,
    .lookupswitch, .ireturn, .lreturn, .freturn, .dreturn, .areturn, .return_void, .getstatic,
    .putstatic, .getfield, .putfield, .invokevirtual, .invokespecial, .invokestatic,
    .invokeinterface, .invokedynamic, .new_object, .newarray, .anewarray, .arraylength,
    .athrow, .checkcast, .instance_of, .monitorenter, .monitorexit, .wide, .multianewarray,
    .ifnull, .ifnonnull, .goto_w, .jsr_w]

/-- Every opcode, for access by byte. -/
def table : Array Opcode := all.toArray

/-- The byte of an opcode, which is its position in the instruction set. -/
def byte (o : Opcode) : UInt8 := UInt8.ofNat o.ctorIdx

/-- The opcode of a byte, if there is one. -/
def ofByte? (b : UInt8) : Option Opcode := table[b.toNat]?

/-- Upper-case mnemonic. -/
def mnemonic : Opcode → String
  | nop => "NOP"
  | aconst_null => "ACONST_NULL"
  | iconst_m1 => "ICONST_M1"
  | iconst_0 => "ICONST_0"
  | iconst_1 => "ICONST_1"
  | iconst_2 => "ICONST_2"
  | iconst_3 => "ICONST_3"
  | iconst_4 => "ICONST_4"
  | iconst_5 => "ICONST_5"
  | lconst_0 => "LCONST_0"
  | lconst_1 => "LCONST_1"
  | fconst_0 => "FCONST_0"
  | fconst_1 => "FCONST_1"
  | fconst_2 => "FCONST_2"
  | dconst_0 => "DCONST_0"
  | dconst_1 => "DCONST_1"
  | bipush => "BIPUSH"
  | sipush => "SIPUSH"
  | ldc => "LDC"
  | ldc_w => "LDC_W"
  | ldc2_w => "LDC2_W"
  | iload => "ILOAD"
  | lload => "LLOAD"
  | fload => "FLOAD"
  | dload => "DLOAD"
  | aload => "ALOAD"
  | iload_0 => "ILOAD_0"
  | iload_1 => "ILOAD_1"
  | iload_2 => "ILOAD_2"
  | iload_3 => "ILOAD_3"
  | lload_0 => "LLOAD_0"
  | lload_1 => "LLOAD_1"
  | lload_2 => "LLOAD_2"
  | lload_3 => "LLOAD_3"
  | fload_0 => "FLOAD_0"
  | fload_1 => "FLOAD_1"
  | fload_2 => "FLOAD_2"
  | fload_3 => "FLOAD_3"
  | dload_0 => "DLOAD_0"
  | dload_1 => "DLOAD_1"
  | dload_2 => "DLOAD_2"
  | dload_3 => "DLOAD_3"
  | aload_0 => "ALOAD_0"
  | aload_1 => "ALOAD_1"
  | aload_2 => "ALOAD_2"
  | aload_3 => "ALOAD_3"
  | iaload => "IALOAD"
  | laload => "LALOAD"
  | faload => "FALOAD"
  | daload => "DALOAD"
  | aaload => "AALOAD"
  | baload => "BALOAD"
  | caload => "CALOAD"
  | saload => "SALOAD"
  | istore => "ISTORE"
  | lstore => "LSTORE"
  | fstore => "FSTORE"
  | dstore => "DSTORE"
  | astore => "ASTORE"
  | istore_0 => "ISTORE_0"
  | istore_1 => "ISTORE_1"
  | istore_2 => "ISTORE_2"
  | istore_3 => "ISTORE_3"
  | lstore_0 => "LSTORE_0"
  | lstore_1 => "LSTORE_1"
  | lstore_2 => "LSTORE_2"
  | lstore_3 => "LSTORE_3"
  | fstore_0 => "FSTORE_0"
  | fstore_1 => "FSTORE_1"
  | fstore_2 => "FSTORE_2"
  | fstore_3 => "FSTORE_3"
  | dstore_0 => "DSTORE_0"
  | dstore_1 => "DSTORE_1"
  | dstore_2 => "DSTORE_2"
  | dstore_3 => "DSTORE_3"
  | astore_0 => "ASTORE_0"
  | astore_1 => "ASTORE_1"
  | astore_2 => "ASTORE_2"
  | astore_3 => "ASTORE_3"
  | iastore => "IASTORE"
  | lastore => "LASTORE"
  | fastore => "FASTORE"
  | dastore => "DASTORE"
  | aastore => "AASTORE"
  | bastore => "BASTORE"
  | castore => "CASTORE"
  | sastore => "SASTORE"
  | pop => "POP"
  | pop2 => "POP2"
  | dup => "DUP"
  | dup_x1 => "DUP_X1"
  | dup_x2 => "DUP_X2"
  | dup2 => "DUP2"
  | dup2_x1 => "DUP2_X1"
  | dup2_x2 => "DUP2_X2"
  | swap => "SWAP"
  | iadd => "IADD"
  | ladd => "LADD"
  | fadd => "FADD"
  | dadd => "DADD"
  | isub => "ISUB"
  | lsub => "LSUB"
  | fsub => "FSUB"
  | dsub => "DSUB"
  | imul => "IMUL"
  | lmul => "LMUL"
  | fmul => "FMUL"
  | dmul => "DMUL"
  | idiv => "IDIV"
  | ldiv => "LDIV"
  | fdiv => "FDIV"
  | ddiv => "DDIV"
  | irem => "IREM"
  | lrem => "LREM"
  | frem => "FREM"
  | drem => "DREM"
  | ineg => "INEG"
  | lneg => "LNEG"
  | fneg => "FNEG"
  | dneg => "DNEG"
  | ishl => "ISHL"
  | lshl => "LSHL"
  | ishr => "ISHR"
  | lshr => "LSHR"
  | iushr => "IUSHR"
  | lushr => "LUSHR"
  | iand => "IAND"
  | land => "LAND"
  | ior => "IOR"
  | lor => "LOR"
  | ixor => "IXOR"
  | lxor => "LXOR"
  | iinc => "IINC"
  | i2l => "I2L"
  | i2f => "I2F"
  | i2d => "I2D"
  | l2i => "L2I"
  | l2f => "L2F"
  | l2d => "L2D"
  | f2i => "F2I"
  | f2l => "F2L"
  | f2d => "F2D"
  | d2i => "D2I"
  | d2l => "D2L"
  | d2f => "D2F"
  | i2b => "I2B"
  | i2c => "I2C"
  | i2s => "I2S"
  | lcmp => "LCMP"
  | fcmpl => "FCMPL"
  | fcmpg => "FCMPG"
  | dcmpl => "DCMPL"
  | dcmpg => "DCMPG"
  | ifeq => "IFEQ"
  | ifne => "IFNE"
  | iflt => "IFLT"
  | ifge => "IFGE"
  | ifgt => "IFGT"
  | ifle => "IFLE"
  | if_icmpeq => "IF_ICMPEQ"
  | if_icmpne => "IF_ICMPNE"
  | if_icmplt => "IF_ICMPLT"
  | if_icmpge => "IF_ICMPGE"
  | if_icmpgt => "IF_ICMPGT"
  | if_icmple => "IF_ICMPLE"
  | if_acmpeq => "IF_ACMPEQ"
  | if_acmpne => "IF_ACMPNE"
  | goto => "GOTO"
  | jsr => "JSR"
  | ret => "RET"
  | tableswitch => "TABLESWITCH"
  | lookupswitch => "LOOKUPSWITCH"
  | ireturn => "IRETURN"
  | lreturn => "LRETURN"
  | freturn => "FRETURN"
  | dreturn => "DRETURN"
  | areturn => "ARETURN"
  | return_void => "RETURN"
  | getstatic => "GETSTATIC"
  | putstatic => "PUTSTATIC"
  | getfield => "GETFIELD"
  | putfield => "PUTFIELD"
  | invokevirtual => "INVOKEVIRTUAL"
  | invokespecial => "INVOKESPECIAL"
  | invokestatic => "INVOKESTATIC"
  | invokeinterface => "INVOKEINTERFACE"
  | invokedynamic => "INVOKEDYNAMIC"
  | new_object => "NEW"
  | newarray => "NEWARRAY"
  | anewarray => "ANEWARRAY"
  | arraylength => "ARRAYLENGTH"
  | athrow => "ATHROW"
  | checkcast => "CHECKCAST"
  | instance_of => "INSTANCEOF"
  | monitorenter => "MONITORENTER"
  | monitorexit => "MONITOREXIT"
  | wide => "WIDE"
  | multianewarray => "MULTIANEWARRAY"
  | ifnull => "IFNULL"
  | ifnonnull => "IFNONNULL"
  | goto_w => "GOTO_W"
  | jsr_w => "JSR_W"

/-- The opcode of an upper-case mnemonic, if there is one. -/
def ofMnemonic? (name : String) : Option Opcode := all.find? fun o => o.mnemonic = name

/-- Lower-case mnemonic. -/
def lowerMnemonic (o : Opcode) : String := o.mnemonic.map Char.toLower

/-- The layout of the operands. -/
def form : Opcode → OperandForm
  | bipush | newarray => .byte
  | sipush => .short
  | iload | lload | fload | dload | aload | istore | lstore | fstore | dstore | astore |
    ret => .slot
  | ldc => .constantByte
  | ldc_w | ldc2_w | getstatic | putstatic | getfield | putfield | invokevirtual |
    invokespecial | invokestatic | new_object | anewarray | checkcast | instance_of => .constant
  | iinc => .increment
  | ifeq | ifne | iflt | ifge | ifgt | ifle | if_icmpeq | if_icmpne | if_icmplt | if_icmpge |
    if_icmpgt | if_icmple | if_acmpeq | if_acmpne | goto | jsr | ifnull | ifnonnull => .branch
  | goto_w | jsr_w => .branchWide
  | invokeinterface => .invokeInterface
  | invokedynamic => .invokeDynamic
  | multianewarray => .multiArray
  | tableswitch => .tableSwitch
  | lookupswitch => .lookupSwitch
  | wide => .wide
  | _ => .none

/-- Whether the instruction may go to an offset that stands in its operand. -/
def isBranch (o : Opcode) : Bool :=
  match o.form with
  | .branch | .branchWide | .tableSwitch | .lookupSwitch => true
  | _ => false

/-- Whether the instruction leaves the method. -/
def isReturn : Opcode → Bool
  | ireturn | lreturn | freturn | dreturn | areturn | return_void | athrow => true
  | _ => false

/-- Whether the operand begins with a constant pool index. -/
def takesConstant (o : Opcode) : Bool :=
  match o.form with
  | .constantByte | .constant | .invokeInterface | .invokeDynamic | .multiArray => true
  | _ => false

/-- Whether the instruction has a form after `wide`. -/
def mayBeWide : Opcode → Bool
  | iload | lload | fload | dload | aload => true
  | istore | lstore | fstore | dstore | astore => true
  | ret | iinc => true
  | _ => false

/-- The opcode of a byte, if it may follow `wide`. -/
def ofWideByte? (b : UInt8) : Option Opcode := (ofByte? b).filter mayBeWide

theorem ofByte?_byte (o : Opcode) : ofByte? o.byte = some o := by
  cases o <;> decide +kernel

theorem byte_of_ofByte? {b : UInt8} {o : Opcode} (h : ofByte? b = some o) : o.byte = b := by
  have key : ∀ n : Fin 256, (table[n.val]?).all (fun o => o.byte == UInt8.ofNat n.val) = true := by
    decide +kernel
  have := key ⟨b.toNat, b.toNat_lt⟩
  rw [ofByte?] at h
  simpa [h] using this

end Opcode

end PatternGuard
