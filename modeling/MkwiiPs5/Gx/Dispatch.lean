import MkwiiPs5.Gx.Draws

/-!
# The dispatcher of commands

`process` of `register_dispatch.cpp`: one turn of its loop, and the loop.
-/

namespace Gx

/-- What the processor works with: the numbers of the Aurora commands, the memory of the host for
indexed loads, and the receiver of draws. -/
structure Backend where
  codes : AuroraCodes
  host : ℕ → UInt8
  active : Option DrawSink

def CP_CMD_NOP : ℕ := 0x00
def CP_CMD_LOAD_CP_REG : ℕ := 0x08
def CP_CMD_LOAD_XF_REG : ℕ := 0x10
def CP_CMD_CALL_DL : ℕ := 0x40
def CP_CMD_INVAL_VTX : ℕ := 0x48
def CP_CMD_LOAD_BP_REG : ℕ := 0x60
def CP_OPCODE_MASK : ℕ := 0xf8
def CP_PRIMITIVE_START : ℕ := 0x80
def CP_PRIMITIVE_END : ℕ := 0xbf

/-- `is_draw_cmd`. -/
def isDrawCmd (cmd : ℕ) : Bool := CP_PRIMITIVE_START ≤ cmd && cmd ≤ CP_PRIMITIVE_END

/-- `CP_CMD_LOAD_INDX_A` to `CP_CMD_LOAD_INDX_D`. -/
def isLoadIndx (opcode : ℕ) : Bool :=
  opcode == 0x20 || opcode == 0x28 || opcode == 0x30 || opcode == 0x38

/-- The opcodes of the commands that only change registers. -/
def isRegisterCmd (opcode : ℕ) : Bool :=
  opcode == CP_CMD_NOP || opcode == CP_CMD_LOAD_BP_REG || opcode == CP_CMD_LOAD_CP_REG ||
    opcode == CP_CMD_LOAD_XF_REG || isLoadIndx opcode || opcode == CP_CMD_CALL_DL ||
    opcode == CP_CMD_INVAL_VTX

section Commands

variable (data : List UInt8) (pos : ℕ) (bigEndian : Bool) (s : GXRegisterState)

def loadBpReg : Except Fault (Option (ℕ × GXRegisterState)) :=
  if hasBytes pos data.length 4 then do
    let value ← readU32 data pos bigEndian
    pure (some (pos + 4, handleBp true value s))
  else pure none

def loadCpReg : Except Fault (Option (ℕ × GXRegisterState)) :=
  if hasBytes pos data.length 5 then do
    let addr ← readU8 data pos
    let value ← readU32 data (pos + 1) bigEndian
    pure (some (pos + 5, handleCp true addr value s))
  else pure none

def loadXfReg : Except Fault (Option (ℕ × GXRegisterState)) := do
  pure (some (← handleXf true data pos bigEndian s))

def callDl : Except Fault (Option (ℕ × GXRegisterState)) :=
  if hasBytes pos data.length 8 then pure (some (pos + 8, s)) else pure none

/-- The commands that only change registers; `none` where `process` returns. -/
def registerCommand (host : ℕ → UInt8) (opcode : ℕ) :
    Except Fault (Option (ℕ × GXRegisterState)) :=
  if opcode = CP_CMD_LOAD_BP_REG then loadBpReg data pos bigEndian s
  else if opcode = CP_CMD_LOAD_CP_REG then loadCpReg data pos bigEndian s
  else if opcode = CP_CMD_LOAD_XF_REG then loadXfReg data pos bigEndian s
  else if isLoadIndx opcode then loadIndx host opcode data pos bigEndian s
  else if opcode = CP_CMD_CALL_DL then callDl data pos s
  -- `CP_CMD_NOP`, and `CP_CMD_INVAL_VTX`, which drops uploads that are not modelled
  else pure (some (pos, s))

end Commands

/-- The result of a command on registers, as one on the whole state. -/
def FifoState.afterRegisters (s : FifoState) (r : Except Fault (Option (ℕ × GXRegisterState))) :
    Attempt Fault FifoState (Option ℕ) :=
  match r with
  | .error e => (.error e, s)
  | .ok none => (.ok none, s)
  | .ok (some (next, registers)) => (.ok (some next), { s with registers := registers })

def FifoState.afterAurora (s : FifoState) (r : Except Fault (Option AuroraResult)) :
    Attempt Fault FifoState (Option ℕ) :=
  match r with
  | .error e => (.error e, s)
  | .ok none => (.ok none, s)
  | .ok (some r) =>
    (.ok (some r.next), { s with registers := r.registers, calls := s.calls ++ r.calls })

/-- The bytes around an unknown command, with `pos` behind it, which the source writes to the log for
the first sixteen of them. -/
def hexDump (data : List UInt8) (pos : ℕ) : Except Fault Unit :=
  let dumpStart := if pos > 17 then pos - 17 else 0
  let dumpEnd := if u32 (pos + 16) < data.length then u32 (pos + 16) else data.length
  (List.range' dumpStart (dumpEnd - dumpStart)).forM fun i => (readU8 data i).map fun _ => ()

/-- One turn of the loop of `process`, at a position inside of the data: the position after it, or
`none` where `process` returns. -/
def command (b : Backend) (handler : DrawHandler) (data : List UInt8) (bigEndian : Bool) (pos : ℕ)
    (s : FifoState) : Attempt Fault FifoState (Option ℕ) :=
  match readU8 data pos with
  | .error e => (.error e, s)
  | .ok cmd =>
    let opcode := cmd &&& CP_OPCODE_MASK
    if isRegisterCmd opcode then
      s.afterRegisters (registerCommand data (pos + 1) bigEndian s.registers b.host opcode)
    else if opcode = b.codes.load then
      s.afterAurora (handleAurora data (pos + 1) bigEndian s.registers b.codes)
    else if isDrawCmd cmd then readDraw handler cmd data (pos + 1) bigEndian s
    -- an unknown command is skipped
    else ((hexDump data (pos + 1)).map fun _ => some (pos + 1), s)

/-- The loop of `process`; `none` stands for more turns than `fuel`. -/
def processFrom (b : Backend) (handler : DrawHandler) (data : List UInt8) (bigEndian : Bool) :
    ℕ → ℕ → FifoState → Option (Attempt Fault FifoState Unit)
  | 0, _, _ => none
  | fuel + 1, pos, s =>
    if pos < data.length then
      match command b handler data bigEndian pos s with
      | (.error e, s) => some (.error e, s)
      | (.ok none, s) => some (.ok (), s)
      | (.ok (some next), s) => processFrom b handler data bigEndian fuel next s
    else some (.ok (), s)

/-- `process`. -/
def process (b : Backend) (data : List UInt8) (bigEndian : Bool) (fuel : ℕ) (s : FifoState) :
    Option (Attempt Fault FifoState Unit) :=
  processFrom b (handleDraw b.active data bigEndian) data bigEndian fuel 0 s

end Gx
