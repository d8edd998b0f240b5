/-! The traits of characters that domain names may hold, as text in hexadecimal: spans, and after the
colon the letter of a writing direction other than left to right, `M` for a mark, the combining class
in decimal, and the letter of how the character joins with its neighbours. -/
namespace Chainfolio.Unicode

def traitRows : List String := [
  "0-8:N 9-d:O e-1b:N 1c-20:O 21-2f:N 30-39:E 3a-60:N 7b-d7:N f7:N 2b9-2ba:N 2c2-2cf:N",
  "2d2-2ed:N 2ef-2ff:N 300-314:XM230t 315:XM232t 316-319:XM220t 31a:XM232t 31b:XM216t",
  "31c-320:XM220t 321-322:XM202t 323-326:XM220t 327-328:XM202t 329-333:XM220t 334-338:XM1t",
  "339-33c:XM220t 33d-346:XM230t 347-349:XM220t 34a-34c:XM230t 34d-34e:XM220t 350-352:XM230t",
  "353-356:XM220t 357:XM230t 358:XM232t 359-35a:XM220t 35b:XM230t 35c:XM233t 35d-35e:XM234t",
  "35f:XM233t 360-361:XM234t 362:XM233t 363-36f:XM230t 375:N 3f6:N 483-487:XM230t 488-489:XMt",
  "58a-58f:N 591:XM220t 592-595:XM230t 596:XM220t 597-599:XM230t 59a:XM222t 59b:XM220t",
  "59c-5a1:XM230t 5a2-5a7:XM220t 5a8-5a9:XM230t 5aa:XM220t 5ab-5ac:XM230t 5ad:XM222t 5ae:XM228t",
  "5af:XM230t 5b0:XM10t 5b1:XM11t 5b2:XM12t 5b3:XM13t 5b4:XM14t 5b5:XM15t 5b6:XM16t 5b7:XM17t",
  "5b8:XM18t 5b9-5ba:XM19t 5bb:XM20t 5bc:XM21t 5bd:XM22t 5be:R 5bf:XM23t 5c0:R 5c1:XM24t",
  "5c2:XM25t 5c3:R 5c4:XM230t 5c5:XM220t 5c6:R 5c7:XM18t 5d0-5f4:R 606-607:N 608:R 609-60a:N",
  "60b:R 60c:N 60d:R 60e-60f:N 610-617:XM230t 618:XM30t 619:XM31t 61a:XM32t 61b-61f:R 620:Rd",
  "621:R 622-625:Rr 626:Rd 627:Rr 628:Rd 629:Rr 62a-62e:Rd 62f-632:Rr 633-63f:Rd 640:Rc",
  "641-647:Rd 648:Rr 649-64a:Rd 64b:XM27t 64c:XM28t 64d:XM29t 64e:XM30t 64f:XM31t 650:XM32t",
  "651:XM33t 652:XM34t 653-654:XM230t 655-656:XM220t 657-65b:XM230t 65c:XM220t 65d-65e:XM230t",
  "65f:XM220t 660-669:A 66a:N 66b-66c:A 66d:R 66e-66f:Rd 670:XM35t 671-673:Rr 674:R 679-687:Rd",
  "688-699:Rr 69a-6bf:Rd 6c0:Rr 6c1-6c2:Rd 6c3-6cb:Rr 6cc:Rd 6cd:Rr 6ce:Rd 6cf:Rr 6d0-6d1:Rd",
  "6d2-6d3:Rr 6d4:R 6d5:Rr 6d6-6dc:XM230t 6de:N 6df-6e2:XM230t 6e3:XM220t 6e4:XM230t 6e5-6e6:R",
  "6e7-6e8:XM230t 6e9:N 6ea:XM220t 6eb-6ec:XM230t 6ed:XM220t 6ee-6ef:Rr 6f0-6f9:E 6fa-6fc:Rd",
  "6fd-6fe:R 6ff:Rd 700-70d:R 710:Rr 711:XM36t 712-714:Rd 715-719:Rr 71a-71d:Rd 71e:Rr",
  "71f-727:Rd 728:Rr 729:Rd 72a:Rr 72b:Rd 72c:Rr 72d-72e:Rd 72f:Rr 730:XM230t 731:XM220t",
  "732-733:XM230t 734:XM220t 735-736:XM230t 737-739:XM220t 73a:XM230t 73b-73c:XM220t 73d:XM230t",
  "73e:XM220t 73f-741:XM230t 742:XM220t 743:XM230t 744:XM220t 745:XM230t 746:XM220t 747:XM230t",
  "748:XM220t 749-74a:XM230t 74d:Rr 74e-758:Rd 759-75b:Rr 75c-76a:Rd 76b-76c:Rr 76d-770:Rd",
  "771:Rr 772:Rd 773-774:Rr 775-777:Rd 778-779:Rr 77a-77f:Rd 780-7a5:R 7a6-7b0:XMt 7b1-7c9:R",
  "7ca-7ea:Rd 7eb-7f1:XM230t 7f2:XM220t 7f3:XM230t 7f4-7f5:R 7f6-7f9:N 7fa:Rc 7fd:XM220t",
  "7fe-815:R 816-819:XM230t 81a:R 81b-823:XM230t 824:R 825-827:XM230t 828:R 829-82d:XM230t",
  "830-83e:R 840:Rr 841-845:Rd 846-847:Rr 848:Rd 849:Rr 84a-853:Rd 854:Rr 855:Rd 856-858:Rr",
  "859-85b:XM220t 85e:R 860:Rd 861:R 862-865:Rd 866:R 867:Rr 868:Rd 869-882:Rr 883-885:Rc",
  "886:Rd 887-888:R 889-88d:Rd 88e:Rr 88f:Rd 897-898:XM230t 899-89b:XM220t 89c-89f:XM230t",
  "8a0-8a9:Rd 8aa-8ac:Rr 8ad:R 8ae:Rr 8af-8b0:Rd 8b1-8b2:Rr 8b3-8b8:Rd 8b9:Rr 8ba-8c8:Rd 8c9:R",
  "8ca-8ce:XM230t 8cf-8d3:XM220t 8d4-8e1:XM230t 8e3:XM220t 8e4-8e5:XM230t 8e6:XM220t",
  "8e7-8e8:XM230t 8e9:XM220t 8ea-8ec:XM230t 8ed-8ef:XM220t 8f0:XM27t 8f1:XM28t 8f2:XM29t",
  "8f3-8f5:XM230t 8f6:XM220t 8f7-8f8:XM230t 8f9-8fa:XM220t 8fb-8ff:XM230t 900-902:XMt 903:M",
  "93a:XMt 93b:M 93c:XM7t 93e-940:M 941-948:XMt 949-94c:M 94d:XM9t 94e-94f:M 951:XM230t",
  "952:XM220t 953-954:XM230t 955-957:XMt 962-963:XMt 981:XMt 982-983:M 9bc:XM7t 9be-9c0:M",
  "9c1-9c4:XMt 9c7-9cc:M 9cd:XM9t 9d7:M 9e2-9e3:XMt 9f2-9f3:N 9fb:N 9fe:XM230t a01-a02:XMt",
  "a03:M a3c:XM7t a3e-a40:M a41-a4c:XMt a4d:XM9t a51:XMt a70-a71:XMt a75:XMt a81-a82:XMt a83:M",
  "abc:XM7t abe-ac0:M ac1-ac8:XMt ac9-acc:M acd:XM9t ae2-ae3:XMt af1:N afa-b01:XMt b02-b03:M",
  "b3c:XM7t b3e:M b3f:XMt b40:M b41-b44:XMt b47-b4c:M b4d:XM9t b55-b56:XMt b57:M b62-b63:XMt",
  "b82:XMt bbe-bbf:M bc0:XMt bc1-bcc:M bcd:XM9t bd7:M bf3-bfa:N c00:XMt c01-c03:M c04:XMt",
  "c3c:XM7t c3e-c40:XMt c41-c44:M c46-c4c:XMt c4d:XM9t c55:XM84t c56:XM91t c62-c63:XMt",
  "c78-c7e:N c81:XMt c82-c83:M cbc:XM7t cbe:M cbf:Mt cc0-cc4:M cc6:Mt cc7-ccb:M ccc:XMt",
  "ccd:XM9t cd5-cd6:M ce2-ce3:XMt cf3:M d00-d01:XMt d02-d03:M d3b-d3c:XM9t d3e-d40:M",
  "d41-d44:XMt d46-d4c:M d4d:XM9t d57:M d62-d63:XMt d81:XMt d82-d83:M dca:XM9t dcf-dd1:M",
  "dd2-dd6:XMt dd8-ddf:M df2-df3:M e31:XMt e34-e37:XMt e38-e39:XM103t e3a:XM9t e3f:N e47:XMt",
  "e48-e4b:XM107t e4c-e4e:XMt eb1:XMt eb4-eb7:XMt eb8-eb9:XM118t eba:XM9t ebb-ebc:XMt",
  "ec8-ecb:XM122t ecc-ece:XMt f18-f19:XM220t f35:XM220t f37:XM220t f39:XM216t f3a-f3d:N",
  "f3e-f3f:M f71:XM129t f72:XM130t f74:XM132t f7a-f7d:XM130t f7e:XMt f7f:M f80:XM130t",
  "f82-f83:XM230t f84:XM9t f86-f87:XM230t f8d-fbc:XMt fc6:XM220t 102b-102c:M 102d-1030:XMt",
  "1031:M 1032-1036:XMt 1037:XM7t 1038:M 1039-103a:XM9t 103b-103c:M 103d-103e:XMt 1056-1057:M",
  "1058-1059:XMt 105e-1060:XMt 1062-1064:M 1067-106d:M 1071-1074:XMt 1082:XMt 1083-1084:M",
  "1085-1086:XMt 1087-108c:M 108d:XM220t 108f:M 109a-109c:M 109d:XMt 135d-135f:XM230t",
  "1390-1399:N 1400:N 169b-169c:N 1712-1713:XMt 1714:XM9t 1715:M9 1732-1733:XMt 1734:M9",
  "1752-1753:XMt 1772-1773:XMt 17b6:M 17b7-17bd:XMt 17be-17c5:M 17c6:XMt 17c7-17c8:M",
  "17c9-17d1:XMt 17d2:XM9t 17d3:XMt 17db:N 17dd:XM230t 17f0-1806:N 1807:Nd 1808-1809:N 180a:Nc",
  "1820-1878:d 1885-1886:XMt 1887-18a8:d 18a9:XM228t 18aa:d 1920-1922:XMt 1923-1926:M",
  "1927-1928:XMt 1929-1931:M 1932:XMt 1933-1938:M 1939:XM222t 193a:XM230t 193b:XM220t",
  "1940-1945:N 19de-19ff:N 1a17:XM230t 1a18:XM220t 1a19-1a1a:M 1a1b:XMt 1a55:M 1a56:XMt 1a57:M",
  "1a58-1a5e:XMt 1a60:XM9t 1a61:M 1a62:XMt 1a63-1a64:M 1a65-1a6c:XMt 1a6d-1a72:M 1a73-1a74:XMt",
  "1a75-1a7c:XM230t 1a7f:XM220t 1ab0-1ab4:XM230t 1ab5-1aba:XM220t 1abb-1abc:XM230t 1abd:XM220t",
  "1abe:XMt 1abf-1ac0:XM220t 1ac1-1ac2:XM230t 1ac3-1ac4:XM220t 1ac5-1ac9:XM230t 1aca:XM220t",
  "1acb-1adc:XM230t 1add:XM220t 1ae0-1ae5:XM230t 1ae6:XM220t 1ae7-1aea:XM230t 1aeb:XM234t",
  "1b00-1b03:XMt 1b04:M 1b34:XM7t 1b35:M 1b36-1b3a:XMt 1b3b:M 1b3c:XMt 1b3d-1b41:M 1b42:XMt",
  "1b43:M 1b44:M9 1b6b:XM230t 1b6c:XM220t 1b6d-1b73:XM230t 1b80-1b81:XMt 1b82:M 1ba1:M",
  "1ba2-1ba5:XMt 1ba6-1ba7:M 1ba8-1ba9:XMt 1baa:M9 1bab:XM9t 1bac-1bad:XMt 1be6:XM7t 1be7:M",
  "1be8-1be9:XMt 1bea-1bec:M 1bed:XMt 1bee:M 1bef-1bf1:XMt 1bf2-1bf3:M9 1c24-1c2b:M",
  "1c2c-1c33:XMt 1c34-1c35:M 1c36:XMt 1c37:XM7t 1cd0-1cd2:XM230t 1cd4:XM1t 1cd5-1cd9:XM220t",
  "1cda-1cdb:XM230t 1cdc-1cdf:XM220t 1ce0:XM230t 1ce1:M 1ce2-1ce8:XM1t 1ced:XM220t 1cf4:XM230t",
  "1cf7:M 1cf8-1cf9:XM230t 1dc0-1dc1:XM230t 1dc2:XM220t 1dc3-1dc9:XM230t 1dca:XM220t",
  "1dcb-1dcc:XM230t 1dcd:XM234t 1dce:XM214t 1dcf:XM220t 1dd0:XM202t 1dd1-1df5:XM230t",
  "1df6:XM232t 1df7-1df8:XM228t 1df9:XM220t 1dfa:XM218t 1dfb:XM230t 1dfc:XM233t 1dfd:XM220t",
  "1dfe:XM230t 1dff:XM220t 200c:N 200d:Nc 2010-20c1:N 20d0-20d1:XM230t 20d2-20d3:XM1t",
  "20d4-20d7:XM230t 20d8-20da:XM1t 20db-20dc:XM230t 20dd-20e0:XMt 20e1:XM230t 20e2-20e4:XMt",
  "20e5-20e6:XM1t 20e7:XM230t 20e8:XM220t 20e9:XM230t 20ea-20eb:XM1t 20ec-20ef:XM220t",
  "20f0:XM230t 2104-214d:N 218a-2335:N 237b-2394:N 2396-26ab:N 26ad-27ff:N 2900-2bff:N",
  "2ce5-2cea:N 2cef-2cf1:XM230t 2cf9-2cff:N 2d7f:XM9t 2de0-2dff:XM230t 2e00-3004:N 3008-3020:N",
  "302a:XM218t 302b:XM228t 302c:XM232t 302d:XM222t 302e-302f:M224 3030:N 3037:N 303d-303f:N",
  "3099-309a:XM8t 30a0:N 30fb:N 31c0-31e5:N 4dc0-4dff:N a490-a4c6:N a60d-a60f:N a66f:XM230t",
  "a670-a672:XMt a673:N a674-a67d:XM230t a67e-a67f:N a69e-a69f:XM230t a6f0-a6f1:XM230t",
  "a700-a721:N a788:N a802:XMt a806:XM9t a80b:XMt a823-a824:M a825-a826:XMt a827:M a828-a82b:N",
  "a82c:XM9t a838-a839:N a840-a871:d a872:l a874-a877:N a880-a881:M a8b4-a8c3:M a8c4:XM9t",
  "a8c5:XMt a8e0-a8f1:XM230t a8ff:XMt a926-a92a:XMt a92b-a92d:XM220t a947-a951:XMt a952:M",
  "a953:M9 a980-a982:XMt a983:M a9b3:XM7t a9b4-a9b5:M a9b6-a9b9:XMt a9ba-a9bb:M a9bc-a9bd:XMt",
  "a9be-a9bf:M a9c0:M9 a9e5:XMt aa29-aa2e:XMt aa2f-aa30:M aa31-aa32:XMt aa33-aa34:M",
  "aa35-aa36:XMt aa43:XMt aa4c:XMt aa4d:M aa7b:M aa7c:XMt aa7d:M aab0:XM230t aab2-aab3:XM230t",
  "aab4:XM220t aab7-aab8:XM230t aabe-aabf:XM230t aac1:XM230t aaeb:M aaec-aaed:XMt aaee-aaef:M",
  "aaf5:M aaf6:XM9t ab6a-ab6b:N abe3-abe4:M abe5:XMt abe6-abe7:M abe8:XMt abe9-abea:M abec:M",
  "abed:XM9t fb1e:XM26t fbb2-fbc2:R fbc3-fdff:N fe20-fe26:XM230t fe27-fe2d:XM220t",
  "fe2e-fe2f:XM230t fe45-fe46:N fe73:R 10101:N 10140-1018c:N 10190-101a0:N 101fd:XM220t",
  "102e0:XM220t 102e1-102fb:E 10376-1037a:XM230t 10800-1091b:R 1091f:N 10920-10a00:R",
  "10a01-10a0c:XMt 10a0d:XM220t 10a0e:XMt 10a0f:XM230t 10a10-10a35:R 10a38:XM230t 10a39:XM1t",
  "10a3a:XM220t 10a3f:XM9t 10a40-10a9f:R 10ac0-10ac4:Rd 10ac5:Rr 10ac6:R 10ac7:Rr 10ac8:R",
  "10ac9-10aca:Rr 10acb-10acc:R 10acd:Rl 10ace-10ad2:Rr 10ad3-10ad6:Rd 10ad7:Rl 10ad8-10adc:Rd",
  "10add:Rr 10ade-10ae0:Rd 10ae1:Rr 10ae2-10ae3:R 10ae4:Rr 10ae5:XM230t 10ae6:XM220t",
  "10aeb-10aee:Rd 10aef:Rr 10af0-10b35:R 10b39-10b3f:N 10b40-10b7f:R 10b80:Rd 10b81:Rr 10b82:Rd",
  "10b83-10b85:Rr 10b86-10b88:Rd 10b89:Rr 10b8a-10b8b:Rd 10b8c:Rr 10b8d:Rd 10b8e-10b8f:Rr",
  "10b90:Rd 10b91:Rr 10b99-10b9c:R 10ba9-10bac:Rr 10bad-10bae:Rd 10baf-10cff:R 10d00:Rl",
  "10d01-10d21:Rd 10d22:Rr 10d23:Rd 10d24-10d27:XM230t 10d30-10d39:A 10d40-10d4f:R",
  "10d69-10d6d:XM230t 10d6e:N 10d6f-10d8f:R 10e60-10e7e:A 10e80-10ea9:R 10eab-10eac:XM230t",
  "10ead-10eb1:R 10ec2:Rr 10ec3-10ec4:Rd 10ec5:R 10ec6-10ec7:Rd 10ed0-10ed8:N",
  "10efa-10efb:XM220t 10efc:XMt 10efd-10eff:XM220t 10f00-10f27:R 10f30-10f32:Rd 10f33:Rr",
  "10f34-10f44:Rd 10f45:R 10f46-10f47:XM220t 10f48-10f4a:XM230t 10f4b:XM220t 10f4c:XM230t",
  "10f4d-10f50:XM220t 10f51-10f53:Rd 10f54:Rr 10f55-10f59:R 10f70-10f73:Rd 10f74-10f75:Rr",
  "10f76-10f81:Rd 10f82:XM230t 10f83:XM220t 10f84:XM230t 10f85:XM220t 10f86-10f89:R 10fb0:Rd",
  "10fb1:R 10fb2-10fb3:Rd 10fb4-10fb6:Rr 10fb7:R 10fb8:Rd 10fb9-10fba:Rr 10fbb-10fbc:Rd",
  "10fbd:Rr 10fbe-10fbf:Rd 10fc0:R 10fc1:Rd 10fc2-10fc3:Rr 10fc4:Rd 10fc5-10fc8:R 10fc9:Rr",
  "10fca:Rd 10fcb:Rl 10fe0-10ff6:R 11000:M 11001:XMt 11002:M 11038-11045:XMt 11046:XM9t",
  "11052-11065:N 11070:XM9t 11073-11074:XMt 1107f:XM9t 11080-11081:XMt 11082:M 110b0-110b2:M",
  "110b3-110b6:XMt 110b7-110b8:M 110b9:XM9t 110ba:XM7t 110c2:XMt 11100-11102:XM230t",
  "11127-1112b:XMt 1112c:M 1112d-11132:XMt 11133-11134:XM9t 11145-11146:M 11173:XM7t",
  "11180-11181:XMt 11182:M 111b3-111b5:M 111b6-111be:XMt 111bf:M 111c0:M9 111c9:XMt 111ca:XM7t",
  "111cb-111cc:XMt 111ce:M 111cf:XMt 1122c-1122e:M 1122f-11231:XMt 11232-11233:M 11234:XMt",
  "11235:M9 11236:XM7t 11237:XMt 1123e:XMt 11241:XMt 112df:XMt 112e0-112e2:M 112e3-112e8:XMt",
  "112e9:XM7t 112ea:XM9t 11300-11301:XMt 11302-11303:M 1133b-1133c:XM7t 1133e-1133f:M 11340:XMt",
  "11341-1134c:M 1134d:M9 11357:M 11362-11363:M 11366-11374:XM230t 113b8-113ba:M",
  "113bb-113c0:XMt 113c2-113cd:M 113ce:XM9t 113cf:M9 113d0:XM9t 113d2:XMt 113e1-113e2:XMt",
  "11435-11437:M 11438-1143f:XMt 11440-11441:M 11442:XM9t 11443-11444:XMt 11445:M 11446:XM7t",
  "1145e:XM230t 114b0-114b2:M 114b3-114b8:XMt 114b9:M 114ba:XMt 114bb-114be:M 114bf-114c0:XMt",
  "114c1:M 114c2:XM9t 114c3:XM7t 115af-115b1:M 115b2-115b5:XMt 115b8-115bb:M 115bc-115bd:XMt",
  "115be:M 115bf:XM9t 115c0:XM7t 115dc-115dd:XMt 11630-11632:M 11633-1163a:XMt 1163b-1163c:M",
  "1163d:XMt 1163e:M 1163f:XM9t 11640:XMt 11660-1166c:N 116ab:XMt 116ac:M 116ad:XMt",
  "116ae-116af:M 116b0-116b5:XMt 116b6:M9 116b7:XM7t 1171d:XMt 1171e:XM 1171f:XMt 11720-11721:M",
  "11722-11725:XMt 11726:M 11727-1172a:XMt 1172b:XM9t 1182c-1182e:M 1182f-11837:XMt 11838:M",
  "11839:XM9t 1183a:XM7t 11930-11938:M 1193b-1193c:XMt 1193d:M9 1193e:XM9t 11940:M 11942:M",
  "11943:XM7t 119d1-119d3:M 119d4-119db:XMt 119dc-119df:M 119e0:XM9t 119e4:M 11a01-11a06:XMt",
  "11a07-11a08:Mt 11a09-11a0a:XMt 11a33:XMt 11a34:XM9t 11a35-11a38:XMt 11a39:M 11a3b-11a3e:XMt",
  "11a47:XM9t 11a51-11a56:XMt 11a57-11a58:M 11a59-11a5b:XMt 11a8a-11a96:XMt 11a97:M 11a98:XMt",
  "11a99:XM9t 11b60:XMt 11b61:M 11b62-11b64:XMt 11b65:M 11b66:XMt 11b67:M 11c2f:M",
  "11c30-11c3d:XMt 11c3e:M 11c3f:M9t 11c92-11ca7:XMt 11ca9:M 11caa-11cb0:XMt 11cb1:M",
  "11cb2-11cb3:XMt 11cb4:M 11cb5-11cb6:XMt 11d31-11d41:XMt 11d42:XM7t 11d43:XMt",
  "11d44-11d45:XM9t 11d47:XMt 11d8a-11d8e:M 11d90-11d91:XMt 11d93-11d94:M 11d95:XMt 11d96:M",
  "11d97:XM9t 11ef3-11ef4:XMt 11ef5-11ef6:M 11f00-11f01:XMt 11f03:M 11f34-11f35:M",
  "11f36-11f3a:XMt 11f3e-11f3f:M 11f40:XMt 11f41:M9 11f42:XM9t 11f5a:XMt 11fd5-11ff1:N",
  "13440:XMt 13447-13455:XMt 1611e-16129:XMt 1612a-1612c:M 1612d-1612e:XMt 1612f:XM9t",
  "16af0-16af4:XM1t 16b30-16b36:XM230t 16f4f:XMt 16f51-16f87:M 16f8f-16f92:XMt 16fe2:N",
  "16fe4:XMt 16ff0-16ff1:M6 1bc9d:XMt 1bc9e:XM1t 1cc00-1cef0:N 1cf00-1cf46:XMt 1d165-1d166:M216",
  "1d167-1d169:XM1t 1d16d:M226 1d16e-1d172:M216 1d17b-1d182:XM220t 1d185-1d189:XM230t",
  "1d18a-1d18b:XM220t 1d1aa-1d1ad:XM230t 1d1e9-1d241:N 1d242-1d244:XM230t 1d245:N 1d300-1d356:N",
  "1da00-1da36:XMt 1da3b-1da6c:XMt 1da75:XMt 1da84:XMt 1da9b-1daaf:XMt 1e000-1e08f:XM230t",
  "1e130-1e136:XM230t 1e2ae:XM230t 1e2ec-1e2ef:XM230t 1e2ff:N 1e4ec-1e4ed:XM232t 1e4ee:XM220t",
  "1e4ef:XM230t 1e5ee:XM230t 1e5ef:XM220t 1e6e3:XM230t 1e6e6:XM230t 1e6ee-1e6ef:XM230t",
  "1e6f5:XM230t 1e800-1e8cf:R 1e8d0-1e8d6:XM220t 1e922-1e943:Rd 1e944-1e949:XM230t 1e94a:XM7t",
  "1e94b:Rt 1e950-1ed3d:R 1eef0-1f12f:N 1f16d-1f16f:N 1f1ad:N 1f260-1fbfa:N"]

end Chainfolio.Unicode
