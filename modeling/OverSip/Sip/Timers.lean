/-!
# SIP timer values and the timers of a proxy configuration

The constants of `sip/timers.rb`, in milliseconds, and the three timers a proxy configuration can
set (`proxies_config.rb`), in whole seconds as the configuration file gives them.
-/

namespace OverSip

/-- RTT estimate. -/
def T1 : Nat := 500

/-- The maximum retransmit interval. -/
def T2 : Nat := 4000

/-- Maximum duration a message will remain in the network. -/
def T4 : Nat := 5000

def TIMER_A : Nat := T1
def TIMER_B : Nat := 64 * T1
def TIMER_C : Nat := 180000

/-- The timer that ends an INVITE server transaction nobody answers. -/
def TIMER_C2 : Nat := TIMER_C + 2000

def TIMER_D_UDP : Nat := 32000
def TIMER_E : Nat := T1
def TIMER_F : Nat := 64 * T1
def TIMER_G : Nat := T1
def TIMER_H : Nat := 64 * T1
def TIMER_I_UDP : Nat := T4
def TIMER_J_UDP : Nat := 64 * T1
def TIMER_K_UDP : Nat := T4
def TIMER_L : Nat := 64 * T1
def TIMER_M : Nat := 64 * T1

/-- Wait of a non-INVITE server transaction before it sends 100. -/
def INT1 : Nat := T2 + 1000

/-- Wait of a non-INVITE server transaction, after `INT1`, before it gives up. -/
def INT2 : Nat := TIMER_F - INT1

/-- The timer entries of a transaction configuration; an absent one takes the default constant. -/
structure TransactionConf where
  timerB : Option Nat
  timerC : Option Nat
  timerF : Option Nat
deriving DecidableEq, Repr

namespace TransactionConf

/-- `@transaction_conf[:timer_B] || TIMER_B`. -/
def timerBms (c : TransactionConf) : Nat := (c.timerB.map (· * 1000)).getD TIMER_B

/-- `@transaction_conf[:timer_C] || TIMER_C`. -/
def timerCms (c : TransactionConf) : Nat := (c.timerC.map (· * 1000)).getD TIMER_C

/-- `@transaction_conf[:timer_F] || TIMER_F`. -/
def timerFms (c : TransactionConf) : Nat := (c.timerF.map (· * 1000)).getD TIMER_F

/-- The bounds of `PROXY_CONFIG_VALIDATIONS`. -/
structure Admitted (c : TransactionConf) : Prop where
  timerB : ∀ s ∈ c.timerB, 2 ≤ s ∧ s ≤ 64
  timerC : ∀ s ∈ c.timerC, 8 ≤ s ∧ s ≤ 180
  timerF : ∀ s ∈ c.timerF, 2 ≤ s ∧ s ≤ 64

/-- The configuration a proxy has when the file sets none of its timers. -/
def default : TransactionConf := { timerB := some 32, timerC := some 120, timerF := some 32 }

theorem admitted_default : default.Admitted := by
  constructor <;> intro s hs <;> cases hs <;> decide

theorem timerCms_ge {c : TransactionConf} (h : c.Admitted) : 8000 ≤ c.timerCms := by
  unfold timerCms
  cases hc : c.timerC with
  | none => decide
  | some s =>
    have := h.timerC s hc
    simp only [Option.map_some, Option.getD_some]
    omega

end TransactionConf

end OverSip
