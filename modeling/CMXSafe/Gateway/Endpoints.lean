import CMXSafe.Gateway.Init
import CMXSafe.OpenSSH.Readconf

/-!
# The agents of the endpoints

What `start.sh` of an endpoint makes of the MAC of its machine: the user that it logs in as,
and the options of its ssh client. No file of the user has a name that the shell would take for
the text in brackets.
-/

namespace CMXSafe.Gateway
open OpenSSH Strings

/-- `echo "$MAC" | sed 's/://g'`, for the text of `/sys/class/net/eth0/address`. -/
def endpointUser (mac : Str) : Str := mac.filter (· ≠ ':')

/-- `MAC_SRV` of the devices. -/
def macSrv : Str := "a2:3f:f8:68:ec:8f".toList

def mqttPort : Str := "1883".toList

/-- `$(get_vip "$MAC_GW" "$1")`; where it fails, the variable is empty. -/
def vip (mac : Str) : Str := (get_vip macGW mac).getD []

/-- The options behind `ssh` in `iot_server/start.sh`. -/
def serverArgv (mac : Str) : List (ForwardFlag × Str) :=
  [(.R, '[' :: (vip mac ++ ']' :: ':' :: (mqttPort ++ ":[::1]:".toList ++ mqttPort)))]

/-- The options behind `ssh` in `iot_device_1/start.sh` and `iot_device_2/start.sh`. -/
def deviceArgv : List (ForwardFlag × Str) :=
  [(.L, '[' :: (vip macSrv ++ ']' :: ':' ::
    (mqttPort ++ ':' :: '[' :: (vip macSrv ++ ']' :: ':' :: mqttPort))))]

/-- The options of an agent: those of its command line, and `exitonforwardfailure yes` of the
`ssh_config` that all endpoints mount. -/
def agentOptions (getenv : Str → Option Str) (services : Str → Option Int)
    (argv : List (ForwardFlag × Str)) : Option ForwardOptions :=
  (readForwards getenv services argv).map
    (fun options => { options with exitOnForwardFailure := true })

end CMXSafe.Gateway
