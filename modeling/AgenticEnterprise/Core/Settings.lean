/-! The settings the modelled code reads, with the defaults of the source. -/

set_option autoImplicit false

namespace AgenticEnterprise.Core

structure Settings where
  demoUsername : String := "admin"
  demoPassword : String := ""
  demo2Username : String := "someone-else"
  demo2Password : String := ""
  checkpointRetentionDays : Int := 30
  deriving DecidableEq, Repr

end AgenticEnterprise.Core
