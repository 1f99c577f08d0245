import CMXSafe.OpenSSH.Servconf

/-!
# The deployed configuration of sshd

The file that the gateway mounts as `/etc/ssh/sshd_config`; its lines end in `\r\n`.
-/

namespace CMXSafe.Gateway
open OpenSSH Strings

/-- The keywords of `servconf.c` that are only allowed outside `Match` blocks. -/
def globalKeywords : List String :=
  ["usepam", "pamauthenticationviakbdint", "port", "hostkey", "hostdsakey", "hostkeyagent",
    "pidfile", "modulifile", "serverkeybits", "logingracetime", "keyregenerationinterval",
    "syslogfacility", "rhostsauthentication", "hostkeyalgorithms", "dsaauthentication",
    "kerberosorlocalpasswd", "kerberosticketcleanup", "kerberosgetafstoken",
    "kerberostgtpassing", "afstokenpassing", "gssapicleanupcredentials",
    "gssapistrictacceptorcheck", "checkmail", "listenaddress", "addressfamily", "printmotd",
    "printlastlog", "ignoreuserknownhosts", "xauthlocation", "strictmodes",
    "permituserenvironment", "uselogin", "compression", "tcpkeepalive", "keepalive", "ciphers",
    "macs", "protocol", "subsystem", "maxstartups", "persourcemaxstartups",
    "persourcenetblocksize", "usedns", "verifyreversemapping", "reversemappingcheck",
    "useprivilegeseparation", "hostcertificate", "kexalgorithms", "versionaddendum",
    "fingerprinthash", "securitykeyprovider"]

/-- The other keywords that this development does not interpret, `Include` apart. -/
def matchKeywords : List String :=
  ["permitrootlogin", "loglevel", "logverbose", "rhostsrsaauthentication",
    "hostbasedauthentication", "hostbasedusesnamefrompacketonly",
    "hostbasedacceptedalgorithms", "hostbasedacceptedkeytypes", "rsaauthentication",
    "pubkeyauthentication", "pubkeyacceptedalgorithms", "pubkeyacceptedkeytypes",
    "pubkeyauthoptions", "kerberosauthentication", "gssapiauthentication",
    "passwordauthentication", "kbdinteractiveauthentication",
    "challengeresponseauthentication", "skeyauthentication", "ignorerhosts", "x11forwarding",
    "x11displayoffset", "x11uselocalhost", "permitemptypasswords", "rekeylimit",
    "allowagentforwarding", "allowgroups", "denygroups", "maxauthtries", "maxsessions",
    "banner", "clientaliveinterval", "clientalivecountmax", "authorizedkeysfile",
    "authorizedkeysfile2", "acceptenv", "setenv", "permittty", "permituserrc",
    "chrootdirectory", "revokedkeys", "trustedusercakeys", "authorizedprincipalsfile", "ipqos",
    "authorizedkeyscommand", "authorizedkeyscommanduser", "authorizedprincipalscommand",
    "authorizedprincipalscommanduser", "authenticationmethods", "streamlocalbindmask",
    "streamlocalbindunlink", "exposeauthinfo", "rdomain", "casignaturealgorithms",
    "requiredrsasize", "channeltimeout", "unusedconnectiontimeout"]

def otherIn (global inMatch : List Str) (keyword : Str) : Option Bool :=
  if global.any (strcasecmp keyword) then some false
  else if inMatch.any (strcasecmp keyword) then some true
  else none

def otherKeyword : Str → Option Bool :=
  otherIn (globalKeywords.map String.toList) (matchKeywords.map String.toList)

/-- The sections on confidentiality, integrity, availability, non repudiation and
authentication. -/
def transportLines : List String :=
  ["# Confidentiality",
    "ciphers chacha20-poly1305@openssh.com,aes256-gcm@openssh.com,aes128-gcm@openssh.com,aes256-ctr,aes192-ctr,aes128-ctr",
    "kexalgorithms curve25519-sha256,curve25519-sha256@libssh.org,diffie-hellman-group18-sha512,diffie-hellman-group16-sha512",
    "versionaddendum none",
    "printmotd no",
    "rekeylimit 1G 3600 # Lowered to prevent attacks that compromise session key",
    "compression no",
    "",
    "# Integrity",
    "macs hmac-sha2-512-etm@openssh.com,hmac-sha2-256-etm@openssh.com",
    "fingerprinthash SHA256",
    "permituserenvironment no",
    "",
    "# Availability",
    "port 22",
    "addressfamily any",
    "listenaddress [::]:22",
    "listenaddress 0.0.0.0:22",
    "maxsessions 3 # Lowered to minimize risk of denial of service",
    "tcpkeepalive no",
    "clientaliveinterval 900 # Lowered to minimize risk of denial of service",
    "clientalivecountmax 0 # Lowered to minimize risk of denial of service",
    "maxstartups 10:30:60 # Lowered to minimize risk of denial of service",
    "ipqos lowdelay throughput",
    "subsystem sftp /bin/false",
    "",
    "# Non Repudiation",
    "printlastlog yes",
    "loglevel INFO",
    "syslogfacility AUTH",
    "",
    "# Authentication",
    "hostkey /etc/ssh/cmxsafe-gw-keys/ssh_host_ed25519_key",
    "authenticationmethods publickey",
    "hostkeyalgorithms ssh-ed25519,rsa-sha2-512,rsa-sha2-256",
    "PubkeyAcceptedAlgorithms ssh-ed25519,rsa-sha2-512,rsa-sha2-256",
    "authorizedkeyscommand /bin/cat /authorized_keys/%u",
    "authorizedkeyscommanduser root",
    "revokedkeys none",
    "trustedusercakeys none",
    "pubkeyauthoptions none",
    "ignorerhosts yes",
    "ignoreuserknownhosts yes",
    "hostbasedauthentication no",
    "pubkeyauthentication yes",
    "passwordauthentication no",
    "kbdinteractiveauthentication no",
    "challengeresponseauthentication no",
    "permitemptypasswords no",
    "logingracetime 60 # Lowered to minimize risk of brute force attacks",
    "maxauthtries 4 # Lowered to minimize risk of brute force attacks",
    "securitykeyprovider internal",
    "permituserrc no",
    "exposeauthinfo no",
    "usedns no",
    ""]

def authorizationLines : List String :=
  ["# Authorization",
    "strictmodes yes",
    "x11forwarding no",
    "allowtcpforwarding no",
    "allowagentforwarding no",
    "disableforwarding no",
    "allowstreamlocalforwarding no",
    "streamlocalbindunlink no",
    "permittty no",
    "permitrootlogin no # Prevents server compromise",
    "allowusers a23ff868ec8f 025f9a3db712 0242ac110002",
    "denyusers root",
    "forcecommand echo \"Access granted but no command allowed\"",
    "authorizedprincipalsfile none",
    "authorizedprincipalscommand none",
    "authorizedprincipalscommanduser none",
    "hostkeyagent none",
    "authorizedkeysfile none",
    "permitopen none",
    "permitlisten none",
    "gatewayports no",
    "permittunnel no",
    "chrootdirectory none",
    ""]

def matchLines : List String :=
  ["Match User a23ff868ec8f",
    "    AllowTcpForwarding remote",
    "    GatewayPorts clientspecified",
    "    PermitListen [2001:0242:6392:f935:a23f:f8ff:fe68:ec8f]:1883",
    "    ForceCommand /etc/createservice.sh; sleep infinity",
    "",
    "Match User 025f9a3db712",
    "    AllowTcpForwarding local",
    "    PermitOpen [2001:0242:6392:f935:a23f:f8ff:fe68:ec8f]:1883",
    "",
    "Match User 0242ac110002",
    "    AllowTcpForwarding yes",
    "    PermitOpen a23ff868ec8f.default.svc.cluster.local:22 [2001:0242:6392:f935:a23f:f8ff:fe68:ec8f]:1883"]

def sshdConfig : List Str :=
  ((transportLines ++ authorizationLines ++ matchLines).map String.toList).map (· ++ ['\r'])

end CMXSafe.Gateway
