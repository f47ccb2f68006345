import Toad.Execution.Ledger
import Toad.Nic.Ethernet

/-!
# Opening a device

`Device::try_new` of `nic/device.hpp` and `MAC::system_addr` of `nic/mac.hpp`. Both open
descriptors, give up at several places, and close by hand before each of them. The answers of the
kernel are a parameter; a local variable holds the descriptor that was stored in it, and `Device`
has an empty destructor. `try_new_balanced_iff` finds the one exit where a descriptor is left
open.
-/

namespace Toad

namespace Device

open Execution

/-- The answers of the kernel to the calls of `try_new`, in their order, with what two of them
store; those of calls that are not made do not matter. -/
structure Answers where
  openTun : Int
  tunSetIff : Int
  hwSocket : Int
  getHwAddr : Int
  hwAddr : MAC
  socket : Int
  setAddr : Int
  setNetmask : Int
  getFlags : Int
  setFlags : Int
  getMtu : Int
  mtu : Int

/-- A descriptor is not handed out while it is open. -/
structure Answers.Fresh (answers : Answers) : Prop where
  hwSocket : 0 ≤ answers.hwSocket → answers.hwSocket ≠ answers.openTun
  socket : 0 ≤ answers.socket → answers.socket ≠ answers.openTun

/-- The variables that hold a descriptor: `device.fd`, `sock` in `system_addr`, and `sock_fd`. -/
inductive Local where
  | deviceFd
  | sock
  | sockFd
  deriving DecidableEq, Repr

/-- What is open, and in which variable. -/
structure Opened where
  ledger : Ledger Int := {}
  holds : Local → Option Int := fun _ => none

/-- Store a new descriptor. -/
def Opened.acquire (opened : Opened) (place : Local) (fd : Int) : Opened where
  ledger := opened.ledger.acquire fd
  holds := Function.update opened.holds place (some fd)

/-- `close`. -/
def Opened.close (opened : Opened) (place : Local) : Opened where
  ledger := opened.ledger.closeOwned (opened.holds place)
  holds := Function.update opened.holds place none

/-- A variable goes out of scope. -/
def Opened.forget (opened : Opened) (place : Local) : Opened :=
  { opened with holds := Function.update opened.holds place none }

/-- What `try_new` returns. `ownMac` is `none` where `system_addr` returned a `MAC` to which
nothing was assigned. -/
structure Created where
  ownMac : Option MAC
  ownIp : Vector UInt8 4
  fd : Int
  maximumTransmissionUnit : Nat

/-- How `try_new` ends: a failed assertion, or an optional. -/
inductive Outcome where
  | aborted
  | returned (device : Option Created)

/-- `MAC::system_addr()`. -/
def systemAddr (answers : Answers) (opened : Opened) : Option MAC × Opened :=
  if answers.hwSocket < 0 then (none, opened)
  else
    let opened := opened.acquire .sock answers.hwSocket
    if answers.getHwAddr < 0 then (none, opened.close .sock)
    else (some answers.hwAddr, opened.close .sock)

/-- `inet_pton` into a zeroed address. -/
def ownAddress (inetPton : String → Option (Vector UInt8 4)) (text : String) : Vector UInt8 4 :=
  (inetPton text).getD (Vector.replicate 4 0)

/-- From the ioctls of the interface on. Four of them only log their failure. -/
def configure (inetPton : String → Option (Vector UInt8 4)) (ownIp : String) (answers : Answers)
    (ownMac : Option MAC) (opened : Opened) : Outcome × Opened :=
  if answers.getMtu < 0 then
    (.returned none, (opened.close .sockFd).forget .deviceFd)
  else
    let opened := opened.close .sockFd
    (.returned (some
      { ownMac := ownMac
        ownIp := ownAddress inetPton ownIp
        fd := answers.openTun
        maximumTransmissionUnit := szOfInt answers.mtu }), opened)

/-- `try_new(device_name, own_ip, network_mask)`. -/
def tryNew (inetPton : String → Option (Vector UInt8 4)) (ownIp : String) (answers : Answers) :
    Outcome × Opened :=
  if 0 < answers.openTun then
    let opened := Opened.acquire {} .deviceFd answers.openTun
    if answers.tunSetIff < 0 then (.returned none, (opened.close .deviceFd).forget .deviceFd)
    else
      let (ownMac, opened) := systemAddr answers opened
      if answers.socket < 0 then (.returned none, (opened.close .deviceFd).forget .deviceFd)
      else configure inetPton ownIp answers ownMac (opened.acquire .sockFd answers.socket)
  else (.aborted, {})

/-- Every open descriptor is in one variable, and has been closed as often as it was opened but
once. -/
def Opened.Balanced (opened : Opened) : Prop :=
  opened.ledger.Balanced opened.holds

variable {opened : Opened} {place : Local} {fd : Int}

theorem Opened.balanced_init : Opened.Balanced {} where
  held_open := fun _ _ hholds => nomatch hholds
  owned := fun _ hopen => nomatch hopen
  count := fun _ => rfl

theorem Opened.Balanced.acquire (h : opened.Balanced) (hempty : opened.holds place = none)
    (hfresh : opened.ledger.isOpen fd = false) : (opened.acquire place fd).Balanced :=
  Ledger.Balanced.acquire h hempty hfresh

theorem Opened.Balanced.close (h : opened.Balanced) (place : Local) :
    (opened.close place).Balanced :=
  Ledger.Balanced.release h place

theorem Opened.close_holds (opened : Opened) (place : Local) :
    (opened.close place).holds place = none := by
  show Function.update opened.holds place none place = none
  rw [Function.update_self]

/-- A variable that holds nothing may go out of scope. -/
theorem Opened.forget_empty (hempty : opened.holds place = none) :
    opened.forget place = opened := by
  have hsame : Function.update opened.holds place none = opened.holds := by
    rw [← hempty, Function.update_eq_self]
  rw [Opened.forget, hsame]

/-- A variable that holds a descriptor may not. -/
theorem Opened.Balanced.not_forget (h : opened.Balanced) (hholds : opened.holds place = some fd) :
    ¬ (opened.forget place).Balanced := by
  refine Ledger.Balanced.not_stranded h hholds fun other hother => ?_
  have hne : other ≠ place := by
    intro heq
    rw [heq] at hother
    exact absurd ((Function.update_self ..).symm.trans hother) (by simp)
  exact ⟨hne, (Function.update_of_ne hne ..).symm.trans hother⟩

/-- A descriptor that was opened and closed again leaves everything as it was. -/
theorem Opened.close_acquire_holds (opened : Opened) (fd : Int)
    (hempty : opened.holds place = none) :
    ((opened.acquire place fd).close place).holds = opened.holds := by
  show Function.update (Function.update opened.holds place (some fd)) place none = opened.holds
  rw [Function.update_idem, ← hempty, Function.update_eq_self]

/-- `system_addr` closes what it opens. -/
theorem system_addr_balanced {answers : Answers} (h : opened.Balanced)
    (hempty : opened.holds .sock = none)
    (hfresh : 0 ≤ answers.hwSocket → opened.ledger.isOpen answers.hwSocket = false) :
    (systemAddr answers opened).2.Balanced ∧
      (systemAddr answers opened).2.holds = opened.holds := by
  unfold systemAddr
  split
  · exact ⟨h, rfl⟩
  next hsocket =>
    have hacquired := h.acquire hempty (hfresh (by omega))
    have hholds := opened.close_acquire_holds answers.hwSocket hempty
    dsimp only
    split
    · exact ⟨hacquired.close .sock, hholds⟩
    · exact ⟨hacquired.close .sock, hholds⟩

/-- The open descriptors are those that a variable holds. -/
theorem Opened.Balanced.open_iff (h : opened.Balanced) (fd : Int) :
    opened.ledger.isOpen fd = true ↔ ∃ place, opened.holds place = some fd := by
  constructor
  · intro hopen
    obtain ⟨place, hplace, -⟩ := h.owned fd hopen
    exact ⟨place, hplace⟩
  · intro hheld
    obtain ⟨place, hplace⟩ := hheld
    exact h.held_open place fd hplace

/-- With the tunnel alone, a descriptor that some variable holds is the tunnel. -/
theorem only_tunnel_held (tun fd : Int) :
    (∃ place, Function.update (fun _ => none) Local.deviceFd (some tun) place = some fd) ↔
      fd = tun := by
  constructor
  · intro hheld
    obtain ⟨place, hplace⟩ := hheld
    cases place with
    | deviceFd => exact (Option.some.inj hplace).symm
    | sock => cases hplace
    | sockFd => cases hplace
  · intro heq
    exact ⟨.deviceFd, congrArg some heq.symm⟩

/-- With the tunnel alone, any other descriptor can be handed out. -/
theorem Opened.Balanced.fresh (h : opened.Balanced) {tun : Int}
    (hholds : opened.holds = Function.update (fun _ => none) .deviceFd (some tun))
    (hne : fd ≠ tun) : opened.ledger.isOpen fd = false := by
  by_contra hopen
  have hheld := (h.open_iff fd).mp (Bool.of_not_eq_false hopen)
  rw [hholds, only_tunnel_held] at hheld
  exact hne hheld

/-- The variables once the tunnel is open and `system_addr` has returned. -/
theorem tunnel_opened {answers : Answers} (hfresh : answers.Fresh) :
    (systemAddr answers (Opened.acquire {} .deviceFd answers.openTun)).2.Balanced ∧
      (systemAddr answers (Opened.acquire {} .deviceFd answers.openTun)).2.holds =
        Function.update (fun _ => none) .deviceFd (some answers.openTun) := by
  have htunnel : (Opened.acquire {} .deviceFd answers.openTun).Balanced :=
    Opened.balanced_init.acquire rfl rfl
  exact system_addr_balanced htunnel rfl fun hsocket =>
    htunnel.fresh rfl (hfresh.hwSocket hsocket)

/-- For all answers of the kernel, every descriptor that `try_new` opens is closed once or is in
the device it returns, except when the MTU cannot be read: then the tunnel stays open and nobody
has it. A device that is returned has the only descriptor that is left open. -/
theorem try_new_balanced_iff (inetPton : String → Option (Vector UInt8 4)) (ownIp : String)
    (answers : Answers) (hfresh : answers.Fresh) :
    ((tryNew inetPton ownIp answers).2.Balanced ↔
      ¬ (0 < answers.openTun ∧ 0 ≤ answers.tunSetIff ∧ 0 ≤ answers.socket ∧
        answers.getMtu < 0)) ∧
    ∀ device, (tryNew inetPton ownIp answers).1 = .returned (some device) →
      ∀ fd, (tryNew inetPton ownIp answers).2.ledger.isOpen fd = true ↔ fd = device.fd := by
  obtain ⟨hbalanced, hholds⟩ := tunnel_opened hfresh
  unfold tryNew
  split
  case isFalse hclosed =>
      refine ⟨iff_of_true Opened.balanced_init (by omega), fun device hdevice => ?_⟩
      cases hdevice
  case isTrue hopen =>
      dsimp only
      split
      · have htunnel : (Opened.acquire {} .deviceFd answers.openTun).Balanced :=
          Opened.balanced_init.acquire rfl rfl
        rw [Opened.forget_empty (Opened.close_holds ..)]
        refine ⟨iff_of_true (htunnel.close .deviceFd) (by omega), fun device hdevice => ?_⟩
        cases hdevice
      split
      · rw [Opened.forget_empty (Opened.close_holds ..)]
        refine ⟨iff_of_true (hbalanced.close .deviceFd) (by omega), fun device hdevice => ?_⟩
        cases hdevice
      next hiff hsocket =>
        have hempty : (systemAddr answers
            (Opened.acquire {} .deviceFd answers.openTun)).2.holds .sockFd = none := by
          rw [hholds]
          rfl
        have hopened := hbalanced.acquire hempty
          (hbalanced.fresh hholds (hfresh.socket (by omega)))
        have hclosed := hopened.close .sockFd
        have hleft := (Opened.close_acquire_holds _ answers.socket hempty).trans hholds
        unfold configure
        split
        next hmtu =>
          have hheld := congrFun hleft .deviceFd
          refine ⟨iff_of_false (hclosed.not_forget hheld) (by omega), fun device hdevice => ?_⟩
          cases hdevice
        next hmtu =>
          refine ⟨iff_of_true hclosed (by omega), fun device hdevice fd => ?_⟩
          cases hdevice
          rw [hclosed.open_iff, hleft]
          exact only_tunnel_held answers.openTun fd

/-- A kernel that opens everything and cannot tell the MTU. -/
def withoutMtu : Answers where
  openTun := 3
  tunSetIff := 0
  hwSocket := 4
  getHwAddr := 0
  hwAddr := Vector.replicate 6 2
  socket := 4
  setAddr := 0
  setNetmask := 0
  getFlags := 0
  setFlags := 0
  getMtu := -19
  mtu := 0

/-- Without the MTU the tunnel is lost. -/
theorem try_new_without_mtu :
    ¬ (tryNew (fun _ => none) "10.0.0.1" withoutMtu).2.Balanced := by
  have hfresh : withoutMtu.Fresh := ⟨by decide, by decide⟩
  rw [(try_new_balanced_iff (fun _ => none) "10.0.0.1" withoutMtu hfresh).1]
  decide

end Device

end Toad
