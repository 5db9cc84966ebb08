import X509Parser.X509.Guarantees
