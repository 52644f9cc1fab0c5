import Sel4Xhci.Semantics.Channel
import Mathlib.Algebra.Group.Nat.Defs

/-!
# Mass-storage requests and the memory shared with the driver

The records that pass between a client of `xhci_api.h` and the driver: the API's
`struct umass_request`, the narrower entries of the two block queues, and the
shared region with both queues and the `in_progress` flag.

The queues themselves belong to sDDF. They enter as two `Fifo` parameters: a request
queue that carries a code, an address, a 32-bit block number, a 16-bit block count and
an id, and a response queue.
-/

set_option autoImplicit false

namespace Sel4Xhci.Umass

open Semantics

/-- `blk_request_code_t`; a code that the driver does not know keeps its value. -/
inductive BlkRequestCode
  | readBlocks
  | writeBlocks
  | flush
  | other (code : BitVec 32)
  deriving DecidableEq, Repr, Inhabited

/-- An entry of the request queue. -/
structure BlkReq where
  code : BlkRequestCode
  addr : BitVec 64
  blockNumber : BitVec 32
  count : BitVec 16
  id : BitVec 32
  deriving DecidableEq, Repr, Inhabited

/-- An entry of the response queue. -/
structure BlkResp where
  status : BitVec 32
  addr : BitVec 64
  count : BitVec 16
  successCount : BitVec 16
  id : BitVec 32
  deriving DecidableEq, Repr, Inhabited

/-- A response together with a history variable that is not in memory: which request,
in the order the driver acted on them, it answers. -/
structure Answer extends BlkResp where
  origin : ℕ
  deriving DecidableEq, Repr, Inhabited

/-- The memory that client and driver share: the two queues, `req_queue->in_progress`,
and the heap that data buffers live in. -/
structure Shared (RQ : Fifo BlkReq) (SQ : Fifo Answer) where
  reqQueue : RQ.Carrier
  respQueue : SQ.Carrier
  inProgress : Bool
  heap : BitVec 64 → BitVec 8

/-- `struct umass_request`. A null `cb` is `0`. -/
structure UmassRequest where
  devId : BitVec 32
  umassId : BitVec 32
  read : Bool
  blkno : BitVec 32
  nblks : BitVec 32
  val : BitVec 64
  complete : Bool
  cb : BitVec 64
  xferId : BitVec 32
  deriving DecidableEq, Repr

/-- The queue entry that `execute_next` makes of a request: the block count is narrowed
to 16 bits, and neither the device nor its umass id is part of it. -/
def UmassRequest.toBlkReq (xfer : UmassRequest) : BlkReq where
  code := if xfer.read then .readBlocks else .writeBlocks
  addr := xfer.val
  blockNumber := xfer.blkno
  count := xfer.nblks.setWidth 16
  id := xfer.xferId

/-- A call of `read_block` or `write_block`. -/
structure BlockOp where
  read : Bool
  unit : BitVec 32
  blkno : BitVec 32
  nblks : BitVec 32
  buffer : BitVec 64
  deriving DecidableEq, Repr

/-- What `create_umass_xfer` does with the request it dequeued. -/
inductive XferAction
  | start (op : BlockOp)
  | respond (resp : BlkResp)
  | unrecognised (code : BitVec 32)
  deriving DecidableEq, Repr

/-- The dispatch of `create_umass_xfer` on its local variables. Both block calls name
unit 0; a flush is answered at once with status 1 and success count 1. -/
def BlkReq.action (req : BlkReq) : XferAction :=
  match req.code with
  | .readBlocks =>
    .start ⟨true, 0#32, req.blockNumber, req.count.setWidth 32, req.addr⟩
  | .writeBlocks =>
    .start ⟨false, 0#32, req.blockNumber, req.count.setWidth 32, req.addr⟩
  | .flush => .respond ⟨1#32, req.addr, req.count, 1#16, req.id⟩
  | .other code => .unrecognised code

/-- The block operation a request starts, if it starts one. -/
def BlkReq.blockOp? (req : BlkReq) : Option BlockOp :=
  match req.action with
  | .start op => some op
  | _ => none

/-- A request that starts a transfer. -/
def BlkReq.IsTransfer (req : BlkReq) : Prop := ∃ op, req.action = .start op

/-- A request of `execute_next` always starts a transfer, in the direction asked for, on
unit 0 and with the block count modulo `2 ^ 16`. -/
theorem UmassRequest.action_toBlkReq (xfer : UmassRequest) :
    xfer.toBlkReq.action = .start ⟨xfer.read, 0#32, xfer.blkno,
      (xfer.nblks.setWidth 16).setWidth 32, xfer.val⟩ := by
  cases hread : xfer.read <;> simp [toBlkReq, BlkReq.action, hread]

end Sel4Xhci.Umass
